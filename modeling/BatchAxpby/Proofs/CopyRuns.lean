import BatchAxpby.Bench.Copy
import BatchAxpby.Proofs.Accounting
import BatchAxpby.Proofs.Stores
import BatchAxpby.Proofs.ValidatedRun

/-! # Copies

Every way to copy leaves the values of the source: all cells in order, chunks in any order, and
one lane for each value on a device. A run of the copy benchmark therefore finds its target equal
to its source whenever it ends, and it ends exactly if the buffers fit the host and the device and
the launches can be counted.
-/

namespace BatchAxpby

theorem getElem?_eq_getD {α : Type} {data : Array α} {k : ℕ} (h : k < data.size) (x : α) :
    data[k]? = some (data.getD k x) := by
  simp [h]

theorem storeAll_getD {α : Type} {source target : Array α} {cells : List ℕ}
    (hsize : target.size = source.size) (hcells : ∀ k < source.size, k ∈ cells) (x : α) :
    storeAll (source.getD · x) cells target = source := by
  refine storeAll_eq hsize.symm fun k hk => ?_
  rw [hsize] at hk
  exact ⟨hcells k hk, getElem?_eq_getD hk x⟩

namespace Copy

variable {α : Type} [Scalar α] {source target : Array α}

theorem range_eq_ok (hsize : target.size = source.size) {stop : ℕ} (hstop : stop ≤ source.size)
    (start : ℕ) : range source start stop target =
      .ok () (storeAll (source.getD · Scalar.zero) (List.range' start (stop - start)) target) := by
  rw [range, sweep_eq_forM, List.range'_eq_map_range, storeAll, List.foldl_map]
  refine forM_eq_ok (fun t => t.size = source.size) hsize fun i hi t ht => ?_
  have hlane : start + i < stop := by
    rw [List.mem_range] at hi
    omega
  exact ⟨bind_of_ok (Lane.copy_eq_ok hlane hstop (by omega)), by rwa [Array.size_setIfInBounds]⟩

def chunkCount (size : ℕ) : ℕ := (size + chunkSize - 1) / chunkSize

def chunkCells (size i : ℕ) : List ℕ :=
  List.range' (i * chunkSize) (min ((i + 1) * chunkSize) size - i * chunkSize)

theorem exists_mem_chunkCells {size k : ℕ} (hk : k < size) :
    ∃ i < chunkCount size, k ∈ chunkCells size i := by
  refine ⟨k / chunkSize, ?_, List.mem_range'_1.mpr ?_⟩
  · unfold chunkCount chunkSize
    omega
  · unfold chunkSize
    omega

/-- Chunks in any order leave the source in the target. -/
theorem chunksIn_eq_ok {order : List ℕ} (hsize : target.size = source.size)
    (horder : order.Perm (List.range (chunkCount source.size))) :
    chunksIn order source target = .ok () source := by
  have hrun : chunksIn order source target =
      .ok () (storeAll (source.getD · Scalar.zero) (order.flatMap (chunkCells source.size))
        target) := by
    rw [storeAll_flatMap]
    refine forM_eq_ok (fun t => t.size = source.size) hsize fun i _ t ht => ?_
    exact ⟨range_eq_ok ht (Nat.min_le_right ..) _, by rwa [size_storeAll]⟩
  rw [hrun, storeAll_getD hsize]
  intro k hk
  obtain ⟨i, hi, hmem⟩ := exists_mem_chunkCells hk
  exact List.mem_flatMap.mpr ⟨i, horder.mem_iff.mpr (List.mem_range.mpr hi), hmem⟩

theorem exists_method {surface : Surface} (hsurface : surface ≠ .device) :
    ∃ copy : Array α → BufferM α Unit, method surface = .ok copy ∧
      ∀ source target, target.size = source.size → copy source target = .ok () source := by
  cases surface with
  | sequential =>
    refine ⟨_, rfl, fun source target hsize => ?_⟩
    rw [range_eq_ok hsize le_rfl, storeAll_getD hsize]
    intro k hk
    exact List.mem_range'_1.mpr (by omega)
  | parallel => exact ⟨_, rfl, fun source target hsize => chunksIn_eq_ok hsize (.refl _)⟩
  | device => exact absurd rfl hsurface

end Copy

namespace Emulator

variable {α : Type} [Scalar α] {e : Emulator α} {a t : Array α} {g : Geometry} {limit : ℕ}

theorem launch_copy {i j len : ℕ} {source target : Array α} (hji : j ≠ i)
    (hsource : e.Holds i source) (htarget : e.Holds j target) (hlenS : len ≤ source.size)
    (hlenT : len ≤ target.size) (hcheck : g.check limit = .ok ()) :
    ∃ out : Array α, (∀ k : ℕ, out[k]? = if k < min g.lanes len then source[k]? else target[k]?) ∧
      ((e.stats.Room 1 (min g.lanes len) (g.lanes - min g.lanes len) ∧
        ∃ e', launch limit (.copy j i len) g e = .ok () e' ∧
          e.Advances j out 1 (min g.lanes len) (g.lanes - min g.lanes len) e') ∨
      ¬ e.stats.Room 1 (min g.lanes len) (g.lanes - min g.lanes len) ∧
        ∃ e', launch limit (.copy j i len) g e = .error (.fault .overflow) e') := by
  refine ⟨_, fun k => ?_, launch_advances_of_runLanes htarget hcheck
    (runLanes_copy hji hsource htarget hlenS hlenT g.lanes) (Nat.min_le_left ..)⟩
  rw [getElem?_storeAll_range, Nat.min_eq_left ((Nat.min_le_right ..).trans hlenT)]
  split_ifs with hk
  · exact (getElem?_eq_getD (by omega) _).symm
  · rfl

section WholeBuffers

variable (hsize : t.size = a.size) (hlanes : a.size ≤ g.lanes) (hcheck : g.check limit = .ok ())

include hsize hlanes hcheck

theorem launch_copy_withBatch :
    (e.stats.Room 1 a.size (g.lanes - a.size) ∧
      launch limit (.copy (e.buffers.size + 1) e.buffers.size a.size) g (e.withBatch a t) =
        .ok () ((e.counted 1 a.size (g.lanes - a.size)).withBatch a a)) ∨
    ¬ e.stats.Room 1 a.size (g.lanes - a.size) ∧ ∃ e',
      launch limit (.copy (e.buffers.size + 1) e.buffers.size a.size) g (e.withBatch a t) =
        .error (.fault .overflow) e' := by
  have hrun := runLanes_copy (g := g) (Nat.succ_ne_self _) (e.withBatch_holdsA a t)
    (e.withBatch_holdsB a t) le_rfl hsize.ge g.lanes
  rw [Nat.min_eq_right hlanes, storeAll_getD hsize fun k => List.mem_range.mpr] at hrun
  by_cases hroom : e.stats.Room 1 a.size (g.lanes - a.size)
  · refine .inl ⟨hroom, ?_⟩
    rw [launch_eq_ok hcheck hrun hlanes hroom, launched, e.withBatch_withCellsB hsize.symm]
    rfl
  · exact .inr ⟨hroom, _, launch_eq_overflow hcheck hrun hlanes hroom⟩

theorem sweep_launch_copy (n start : ℕ) :
    (e.stats.Room (n + 1) ((n + 1) * a.size) ((n + 1) * (g.lanes - a.size)) ∧
      sweepFrom (fun _ => launch limit (.copy (e.buffers.size + 1) e.buffers.size a.size) g)
        (n + 1) start (e.withBatch a t) =
          .ok () ((e.counted (n + 1) ((n + 1) * a.size) ((n + 1) * (g.lanes - a.size))).withBatch
            a a)) ∨
    ¬ e.stats.Room (n + 1) ((n + 1) * a.size) ((n + 1) * (g.lanes - a.size)) ∧
      ∃ e', sweepFrom (fun _ => launch limit (.copy (e.buffers.size + 1) e.buffers.size a.size) g)
        (n + 1) start (e.withBatch a t) = .error (.fault .overflow) e' := by
  induction n generalizing e t start with
  | zero =>
    rw [Nat.zero_add, Nat.one_mul, Nat.one_mul]
    rcases launch_copy_withBatch hsize hlanes hcheck with ⟨hroom, hlaunch⟩ | ⟨hroom, e', hlaunch⟩
    · exact .inl ⟨hroom, sweepFrom_succ_of_ok hlaunch⟩
    · exact .inr ⟨hroom, e', sweepFrom_succ_of_error hlaunch⟩
  | succ n ih =>
    rcases launch_copy_withBatch hsize hlanes hcheck with ⟨hroom, hlaunch⟩ | ⟨hroom, e', hlaunch⟩
    · -- The target of the second launch is the source already, and is copied over itself.
      have hrest := ih (e := e.counted 1 a.size (g.lanes - a.size)) (t := a) rfl (start + 1)
      rw [sweepFrom_succ_of_ok hlaunch, LaunchStats.room_succ, ← counted_counted]
      exact hrest
    · exact .inr ⟨fun hmore => hroom hmore.of_succ, e', sweepFrom_succ_of_error hlaunch⟩

end WholeBuffers

end Emulator

namespace Copy

variable {α : Type} [Scalar α] {host : Host} {settings : Settings} {count : ℕ} {elapsed : Float}

/-- The budget of a run holds `count` values, at least one, and the host can hold as many. -/
structure Sized (α : Type) [Scalar α] (host : Host) (settings : Settings) (count : ℕ) : Prop where
  count_eq : count = Budget.bytes settings.gigabytes / Scalar.width α
  count_pos : 0 < count
  shortage_eq : host.shortage? (count * Scalar.width α) = none

theorem sized_of_buffer {seed : UInt64} {values : Array α}
    (hcount : Budget.values (Scalar.width α) settings.gigabytes = .ok count)
    (hbuffer : Random.buffer host seed count = .ok values) :
    Sized α host settings count := by
  unfold Budget.values at hcount
  simp only at hcount
  split_ifs at hcount with hn
  obtain rfl := Except.ok.inj hcount
  obtain ⟨_, hreserve, -⟩ := except_bind_eq_ok.mp hbuffer
  exact ⟨rfl, Nat.pos_of_ne_zero hn, Host.reserve_eq_ok_iff.mp hreserve⟩

theorem draws_beq_self [LawfulScalar α] (seed : UInt64) (len : ℕ) :
    ((Random.draws seed len : Array α) == Random.draws seed len) = true := by
  rw [array_beq_iff, and_iff_right rfl]
  intro i hi
  obtain ⟨word, k, hdraw⟩ := Random.exists_eq_draw (Array.getElem?_eq_getElem hi)
  rw [Array.getElem?_eq_getElem hi, hdraw]
  exact LawfulScalar.draw_beq_self word k

namespace Sized

variable (h : Sized α host settings count)

include h

theorem bytes_le : count * Scalar.width α ≤ Word.maxBytes :=
  Host.le_maxBytes_of_shortage h.shortage_eq

theorem values_eq : Budget.values (Scalar.width α) settings.gigabytes = .ok count := by
  rw [Budget.values, ← h.count_eq, if_neg h.count_pos.ne']

theorem reserve_eq : host.reserve (Scalar.width α) count = .ok () :=
  Host.reserve_eq_ok_iff.mpr h.shortage_eq

theorem buffer_eq (seed : UInt64) :
    (Random.buffer host seed count : Outcome (Array α)) = .ok (Random.draws seed count) := by
  rw [Random.buffer, except_bind_of_ok h.reserve_eq]
  rfl

theorem figures_eq_ok (surface : Surface) (device : Option String) (elapsed : Float)
    (verified : Bool) :
    ∃ r, figures (Scalar.width α) surface device settings count elapsed verified = .ok r ∧
      r.count = count ∧ r.verified = verified := by
  have hbytes : 2 * count * Scalar.width α < Word.bound := by
    have hword : 2 * Word.maxBytes < Word.bound := by decide
    have := h.bytes_le
    rw [Nat.mul_assoc]
    omega
  have hcount : 2 * count < Word.bound :=
    (Nat.le_mul_of_pos_right _ Scalar.width_pos).trans_lt hbytes
  rw [figures, except_bind_of_ok (Word.mul_eq_ok_iff.mpr ⟨hcount, rfl⟩),
    except_bind_of_ok (Word.mul_eq_ok_iff.mpr ⟨hbytes, rfl⟩)]
  exact ⟨_, rfl, rfl, rfl⟩

end Sized

omit [Scalar α] in
theorem HostRun.copies_eq_ok {run : HostRun α} {n : ℕ}
    (hcopy : ∀ target : Array α, target.size = run.source.size →
      run.method run.source target = .ok () run.source)
    (hsize : run.target.size = run.source.size) : run.copies (n + 1) = .ok run.source := by
  refine BufferM.result_eq_ok (x := ()) ?_
  rw [sweep_eq_forM]
  have hrun : forM (List.range (n + 1)) (fun _ => run.method run.source) run.target =
      .ok () ((List.range (n + 1)).foldl (fun _ _ => run.source) run.target) :=
    forM_eq_ok (fun t => t.size = run.source.size) hsize fun _ _ t ht => ⟨hcopy t ht, rfl⟩
  rw [hrun, List.range_succ, List.foldl_append]
  rfl

theorem Sized.runOnHost_eq_ok [LawfulScalar α] (h : Sized α host settings count)
    {surface : Surface} (hsurface : surface ≠ .device) (hrepeats : 0 < settings.repeats)
    (elapsed : Float) : ∃ r, runOnHost α host surface settings elapsed = .ok r ∧
      r.count = count ∧ r.verified = true := by
  obtain ⟨copy, hmethod, hcopy⟩ := exists_method (α := α) hsurface
  obtain ⟨n, hn⟩ := Nat.exists_eq_add_one_of_ne_zero hrepeats.ne'
  let run : HostRun α :=
    ⟨copy, Random.draws Accumulate.seedA count, Array.replicate count Scalar.zero⟩
  have hprepare : prepareHost host surface settings = .ok run := by
    rw [prepareHost, outcome_bind_of_error_ok hmethod, outcome_bind_of_error_ok h.values_eq,
      except_bind_of_ok (h.buffer_eq _), except_bind_of_ok h.reserve_eq]
    rfl
  have hcopies : run.copies settings.repeats = .ok run.source := by
    rw [hn]
    exact HostRun.copies_eq_ok (fun target => hcopy run.source target) (by simp [run])
  obtain ⟨r, hfigures, hcount, hverified⟩ := h.figures_eq_ok surface none elapsed
    (run.source == run.source)
  refine ⟨r, ?_, hcount, hverified.trans (draws_beq_self ..)⟩
  rw [runOnHost, except_bind_of_ok hprepare, outcome_bind_of_fault_ok hcopies, liftFault_eq_ok,
    HostRun.finish, Random.size_draws]
  exact hfigures

theorem sized_of_runOnHost_eq_ok {surface : Surface} {r : Result}
    (h : runOnHost α host surface settings elapsed = .ok r) :
    surface ≠ .device ∧ ∃ count, Sized α host settings count := by
  obtain ⟨run, hprepare, -⟩ := except_bind_eq_ok.mp h
  obtain ⟨copy, hmethod, hprepare⟩ := except_bind_eq_ok.mp hprepare
  obtain ⟨count, hcount, hprepare⟩ := except_bind_eq_ok.mp hprepare
  obtain ⟨source, hbuffer, -⟩ := except_bind_eq_ok.mp hprepare
  refine ⟨?_, count, sized_of_buffer (liftError_eq_ok.mp hcount) hbuffer⟩
  rintro rfl
  exact nomatch hmethod

theorem runOnHost_ends_iff [LawfulScalar α] (hrepeats : 0 < settings.repeats)
    (surface : Surface) (elapsed : Float) :
    (∃ r, runOnHost α host surface settings elapsed = .ok r) ↔
      surface ≠ .device ∧ ∃ count, Sized α host settings count := by
  refine ⟨fun ⟨r, hr⟩ => sized_of_runOnHost_eq_ok hr, fun ⟨hsurface, count, h⟩ => ?_⟩
  obtain ⟨r, hr, -⟩ := h.runOnHost_eq_ok hsurface hrepeats elapsed
  exact ⟨r, hr⟩

theorem verified_of_runOnHost [LawfulScalar α] (hrepeats : 0 < settings.repeats)
    {surface : Surface} {r : Result} (hr : runOnHost α host surface settings elapsed = .ok r) :
    Sized α host settings r.count ∧ r.verified = true := by
  obtain ⟨hsurface, count, h⟩ := sized_of_runOnHost_eq_ok hr
  obtain ⟨r', hr', rfl, hverified⟩ := h.runOnHost_eq_ok hsurface hrepeats elapsed
  cases hr.symm.trans hr'
  exact ⟨h, hverified⟩

section OnDevice

variable {spec : EmulatorSpec} {e : Emulator α} {g : Geometry}

/-- The geometry of a run: groups as large as the device has them, up to the block size. -/
def covering (spec : EmulatorSpec) (count : ℕ) : Except Error Geometry :=
  Geometry.cover count (min blockSize spec.maxGroup)

theorem Sized.exists_covering (h : Sized α host settings count) (hgroup : 0 < spec.maxGroup) :
    ∃ g, covering spec count = .ok g ∧ g.check spec.maxGroup = .ok () := by
  have hblock : 0 < min blockSize spec.maxGroup := lt_min (by decide) hgroup
  have hcover : covering spec count = .ok _ := Geometry.cover_eq_ok count hblock
  have hidle := Geometry.idle_lt_of_cover hcover h.count_pos
  have hcount := (Nat.le_mul_of_pos_right count Scalar.width_pos).trans h.bytes_le
  have hword : Word.maxBytes + blockSize ≤ Word.bound := by decide
  obtain ⟨-, ⟨hgrid, -⟩, -⟩ := Geometry.isLeast_of_cover hcover
  refine ⟨_, hcover, Geometry.check_eq_ok_iff.mpr ⟨hgrid, hblock, Nat.min_le_right .., ?_⟩⟩
  simp only at hidle ⊢
  omega

theorem bind_eq_ok {values zeros t : Array α} (hsize : zeros.size = values.size)
    (hcover : covering spec values.size = .ok g) :
    bind (emulator host spec) values e.buffers.size (e.buffers.size + 1) (e.withBatch zeros t) =
      .ok ⟨values, e.buffers.size, e.buffers.size + 1,
        .copy (e.buffers.size + 1) e.buffers.size values.size, g⟩ (e.withBatch values t) := by
  have hupload := Emulator.upload_eq_ok (e.withBatch_holdsA zeros t) hsize
  rw [e.withBatch_withCellsA hsize.symm] at hupload
  rw [bind, bind_of_ok (show (emulator host spec).upload _ values _ = _ from hupload)]
  exact device_bind_of_error_ok hcover _ _

theorem Sized.prepareDevice_eq (h : Sized α host settings count) (e : Emulator α) :
    prepareDevice (emulator host spec) host settings e =
      (DeviceBatch.allocate (emulator host spec) count count >>= fun batch =>
        (bind (emulator host spec) (Random.draws Accumulate.seedA count) batch.a batch.b).orUndo
          (batch.free (emulator host spec))) e := by
  rw [prepareDevice, device_bind_of_error_ok h.values_eq, lift_bind_of_ok (h.buffer_eq _)]
  -- The two buffers are taken as those of a batch are.
  simp only [DeviceBatch.allocate, bind_assoc, pure_bind]
  rfl

theorem sized_of_runOnDevice {r : Result} {e' : Emulator α}
    (h : runOnDevice (emulator host spec) host settings elapsed e = .ok r e') :
    ∃ count, Sized α host settings count ∧
      (count + count) * Scalar.width α ≤ e.ledger.free := by
  obtain ⟨run, e₁, hprepare, -⟩ := BatchAxpby.bind_eq_ok.mp h
  obtain ⟨count, hcount, hrest⟩ := device_bind_error_eq_ok.mp hprepare
  obtain ⟨values, hbuffer, -⟩ := lift_bind_eq_ok.mp hrest
  have hsized := sized_of_buffer hcount hbuffer
  refine ⟨count, hsized, ?_⟩
  rw [hsized.prepareDevice_eq] at hprepare
  rcases Emulator.allocateBatch_cases host spec count count e with
    ⟨-, hfits⟩ | ⟨stop, e₂, hnew, -⟩
  · exact hfits
  · rw [bind_of_error hnew] at hprepare
    exact nomatch hprepare

theorem Sized.finish_eq_ok (h : Sized α host settings count) (spec : EmulatorSpec)
    (run : DeviceRun α) {copied : Array α} (hrun : run.host.size = count)
    (hcopied : copied.size = count) (hholds : e.Holds run.target copied) (elapsed : Float) :
    ∃ r, run.finish (emulator host spec) host settings elapsed e = .ok r e ∧ r.count = count ∧
      r.verified = (copied == run.host) := by
  obtain ⟨r, hfigures, hr⟩ := h.figures_eq_ok .device (some DeviceKind.emulated.text) elapsed
    (copied == run.host)
  have hdownload := Emulator.download_eq_ok hholds
  rw [hcopied] at hdownload
  refine ⟨r, ?_, hr⟩
  rw [DeviceRun.finish, hrun, lift_bind_of_ok h.reserve_eq,
    bind_of_ok (show (emulator host spec).download run.target count e = _ from hdownload)]
  exact congrArg (fun x : Except Fault Result => (liftM x : DeviceM (Emulator α) Result) e) hfigures

/-- A run whose buffers fit ends and finds its target verified, if its launches can be counted. -/
theorem Sized.runOnDevice_cases [LawfulScalar α] (h : Sized α host settings count)
    (hrepeats : 0 < settings.repeats) (hcap : e.ledger.capacity < Word.bound)
    (hfree : (count + count) * Scalar.width α ≤ e.ledger.free)
    (hcover : covering spec count = .ok g) (hcheck : g.check spec.maxGroup = .ok ())
    (elapsed : Float) :
    (e.stats.Room settings.repeats (settings.repeats * count)
        (settings.repeats * (g.lanes - count)) ∧
      ∃ r e', runOnDevice (emulator host spec) host settings elapsed e = .ok r e' ∧
        r.count = count ∧ r.verified = true ∧
        (e.counted settings.repeats (settings.repeats * count)
          (settings.repeats * (g.lanes - count))).Restores e') ∨
    ¬ e.stats.Room settings.repeats (settings.repeats * count)
        (settings.repeats * (g.lanes - count)) ∧
      ∃ e', runOnDevice (emulator host spec) host settings elapsed e =
        .error (.fault .overflow) e' := by
  let values : Array α := Random.draws Accumulate.seedA count
  let zeros : Array α := Array.replicate count Scalar.zero
  have hvalues : values.size = count := Random.size_draws ..
  have hzeros : zeros.size = values.size := (Array.size_replicate ..).trans hvalues.symm
  let run : DeviceRun α := ⟨values, e.buffers.size, e.buffers.size + 1,
    .copy (e.buffers.size + 1) e.buffers.size values.size, g⟩
  have hprepare : prepareDevice (emulator host spec) host settings e =
      .ok run (e.withBatch values zeros) := by
    rw [h.prepareDevice_eq, bind_of_ok (Emulator.allocateBatch_eq_ok spec hcap h.count_pos
      h.count_pos hfree h.shortage_eq h.shortage_eq)]
    exact DeviceM.orUndo_of_ok (bind_eq_ok hzeros (by rwa [hvalues])) _
  obtain ⟨n, hn⟩ := Nat.exists_eq_add_one_of_ne_zero hrepeats.ne'
  have hlanes : values.size ≤ g.lanes := hvalues ▸ Geometry.lanes_le_of_cover hcover
  have hlaunches := Emulator.sweep_launch_copy (e := e) hzeros hlanes hcheck n 0
  rw [← hn] at hlaunches
  rw [runOnDevice, bind_of_ok hprepare, ← hvalues]
  rcases hlaunches with ⟨hroom, hlaunches⟩ | ⟨hroom, e', hlaunches⟩
  · obtain ⟨r, hfinish, hcount, hverified⟩ := h.finish_eq_ok spec run hvalues hvalues
      (Emulator.withBatch_holdsB (e.counted ..) values values) elapsed
    refine .inl ⟨hroom, r, _, ?_, hcount.trans hvalues.symm, hverified.trans (draws_beq_self ..),
      Emulator.restores_free_withBatch (e.counted ..) values values⟩
    exact DeviceM.andFinally_of_ok ((bind_of_ok (bind_of_ok hlaunches)).trans hfinish) _
  · exact .inr ⟨hroom, _,
      DeviceM.andFinally_of_error (bind_of_error (bind_of_error hlaunches)) _⟩

/-- The device can hold both buffers and can count all launches. -/
structure Fits (spec : EmulatorSpec) (settings : Settings) (count : ℕ) (g : Geometry)
    (e : Emulator α) : Prop where
  covering_eq : covering spec count = .ok g
  bytes_le : (count + count) * Scalar.width α ≤ e.ledger.free
  room : e.stats.Room settings.repeats (settings.repeats * count)
    (settings.repeats * (g.lanes - count))

section Ends

variable [LawfulScalar α] (hrepeats : 0 < settings.repeats) (hgroup : 0 < spec.maxGroup)
  (hcap : e.ledger.capacity < Word.bound)

include hrepeats hgroup hcap

theorem verified_of_runOnDevice {r : Result} {e' : Emulator α}
    (hr : runOnDevice (emulator host spec) host settings elapsed e = .ok r e') :
    Sized α host settings r.count ∧ r.verified = true ∧
      ∃ g, Fits spec settings r.count g e ∧
        (e.counted settings.repeats (settings.repeats * r.count)
          (settings.repeats * (g.lanes - r.count))).Restores e' := by
  obtain ⟨count, h, hfree⟩ := sized_of_runOnDevice hr
  obtain ⟨g, hcover, hcheck⟩ := h.exists_covering hgroup
  rcases h.runOnDevice_cases hrepeats hcap hfree hcover hcheck elapsed with
    ⟨hroom, r', e₁, hr', rfl, hverified, hrestores⟩ | ⟨-, e₁, hr'⟩
  · cases hr.symm.trans hr'
    exact ⟨h, hverified, g, ⟨hcover, hfree, hroom⟩, hrestores⟩
  · cases hr.symm.trans hr'

theorem runOnDevice_ends_iff (elapsed : Float) :
    (∃ r e', runOnDevice (emulator host spec) host settings elapsed e = .ok r e') ↔
      ∃ count g, Sized α host settings count ∧ Fits spec settings count g e := by
  constructor
  · rintro ⟨r, e', hr⟩
    obtain ⟨h, -, g, hfits, -⟩ := verified_of_runOnDevice hrepeats hgroup hcap hr
    exact ⟨r.count, g, h, hfits⟩
  · rintro ⟨count, g, h, hfits⟩
    obtain ⟨g', hcover, hcheck⟩ := h.exists_covering hgroup
    cases hfits.covering_eq.symm.trans hcover
    rcases h.runOnDevice_cases hrepeats hcap hfits.bytes_le hcover hcheck elapsed with
      ⟨-, r, e', hr, -⟩ | ⟨hroom, -⟩
    · exact ⟨r, e', hr⟩
    · exact absurd hfits.room hroom

end Ends

end OnDevice

/-- The target equals the source after a copy on either host surface, whatever the order of the
chunks is. A launch of the copy kernel copies as many values as it has lanes, and changes nothing
else. A run on the host ends if the host can hold its buffers, and a run on the emulator if the
device can hold them too and can count the launches. Every run that ends has verified its target,
and on the emulator it has counted its launches and given all memory back. -/
theorem copies_are_exact [LawfulScalar α] (source target : Array α)
    (hsize : target.size = source.size) (settings : Settings) (hrepeats : 0 < settings.repeats)
    (host : Host) (spec : EmulatorSpec) (hgroup : 0 < spec.maxGroup) (elapsed : Float)
    (e : Emulator α) (hcap : e.ledger.capacity < Word.bound) :
    (∀ order : List ℕ, order.Perm (List.range (chunkCount source.size)) →
      chunksIn order source target = .ok () source) ∧
    (∀ surface ≠ Surface.device, ∃ copy, method surface = .ok copy ∧
      copy source target = .ok () source) ∧
    (∀ i j len g, j ≠ i → e.Holds i source → e.Holds j target → len ≤ source.size →
      g.check spec.maxGroup = .ok () →
      ∃ out : Array α,
        (∀ k : ℕ, out[k]? = if k < min g.lanes len then source[k]? else target[k]?) ∧
        ((e.stats.Room 1 (min g.lanes len) (g.lanes - min g.lanes len) ∧
          ∃ e', Emulator.launch spec.maxGroup (.copy j i len) g e = .ok () e' ∧
            e.Advances j out 1 (min g.lanes len) (g.lanes - min g.lanes len) e') ∨
        ¬ e.stats.Room 1 (min g.lanes len) (g.lanes - min g.lanes len) ∧
          ∃ e', Emulator.launch spec.maxGroup (.copy j i len) g e =
            .error (.fault .overflow) e')) ∧
    (∀ surface,
      ((∃ r, runOnHost α host surface settings elapsed = .ok r) ↔
        surface ≠ .device ∧ ∃ count, Sized α host settings count) ∧
      ∀ r, runOnHost α host surface settings elapsed = .ok r →
        Sized α host settings r.count ∧ r.verified = true) ∧
    ((∃ r e', runOnDevice (emulator host spec) host settings elapsed e = .ok r e') ↔
      ∃ count g, Sized α host settings count ∧ Fits spec settings count g e) ∧
    ∀ r e', runOnDevice (emulator host spec) host settings elapsed e = .ok r e' →
      Sized α host settings r.count ∧ r.verified = true ∧
      ∃ g, Fits spec settings r.count g e ∧
        (e.counted settings.repeats (settings.repeats * r.count)
          (settings.repeats * (g.lanes - r.count))).Restores e' := by
  refine ⟨fun order => chunksIn_eq_ok hsize, ?_, ?_, ?_,
    runOnDevice_ends_iff hrepeats hgroup hcap elapsed,
    fun r e' => verified_of_runOnDevice hrepeats hgroup hcap⟩
  · intro surface hsurface
    obtain ⟨copy, hmethod, hcopy⟩ := exists_method (α := α) hsurface
    exact ⟨copy, hmethod, hcopy source target hsize⟩
  · intro i j len g hji hsource htarget hlen
    exact Emulator.launch_copy hji hsource htarget hlen (hlen.trans hsize.ge)
  · intro surface
    exact ⟨runOnHost_ends_iff hrepeats surface elapsed, fun r => verified_of_runOnHost hrepeats⟩

def threeValues : Settings where
  gigabytes := 12 / 1073741824
  repeats := 2

def pastChunk (x : Float32) : Array Float32 := Array.replicate 65537 x

def copyDevice : Emulator Float32 :=
  ⟨⟨524320, 524296⟩, #[{ cells := pastChunk 0 }, { cells := pastChunk 1 }], ⟨4, 9, 3⟩⟩

theorem sized_threeValues : Sized Float32 Host.standard threeValues 3 :=
  ⟨by decide +kernel, by decide, by decide⟩

/-- The chunk of one value may come first. Six lanes copy five values. On groups of two lanes
the run counts three active lanes and an idle one for each of its launches. -/
theorem threeValues_copies_exact :
    chunksIn [1, 0] (pastChunk 1) (pastChunk 0) = .ok () (pastChunk 1) ∧
    (∃ out e', (∀ k : ℕ, out[k]? = if k < 5 then (pastChunk 1)[k]? else (pastChunk 0)[k]?) ∧
      Emulator.launch 2 (.copy 0 1 5) ⟨3, 2⟩ copyDevice = .ok () e' ∧
      copyDevice.Advances 0 out 1 5 1 e') ∧
    (∃ r, runOnHost Float32 Host.standard .parallel threeValues 0 = .ok r ∧
      r.verified = true) ∧
    ∃ r e', runOnDevice (emulator Host.standard { maxGroup := 2 }) Host.standard threeValues 0
        copyDevice = .ok r e' ∧ r.verified = true ∧ (copyDevice.counted 2 6 2).Restores e' := by
  obtain ⟨hchunks, -, hlaunch, hhost, hends, hdevice⟩ := copies_are_exact
    (pastChunk 1) (pastChunk 0) (by simp [pastChunk]) threeValues (by decide)
    Host.standard { maxGroup := 2 } (by decide) 0 copyDevice (by decide)
  have hsize : (pastChunk 1).size = 65537 := Array.size_replicate ..
  refine ⟨hchunks [1, 0] ?_, ?_, ?_, ?_⟩
  · rw [hsize]
    decide
  · obtain ⟨out, hout, ⟨-, e', hok, hadvances⟩ | ⟨hroom, -⟩⟩ := hlaunch 1 0 5 ⟨3, 2⟩ (by decide)
      ⟨true, rfl⟩ ⟨true, rfl⟩ (by rw [hsize]; decide) rfl
    · exact ⟨out, e', hout, hok, hadvances⟩
    · exact absurd ⟨by decide, by decide, by decide⟩ hroom
  · obtain ⟨r, hr⟩ := (hhost .parallel).1.mpr ⟨by decide, 3, sized_threeValues⟩
    exact ⟨r, hr, ((hhost .parallel).2 r hr).2⟩
  · obtain ⟨r, e', hr⟩ := hends.mpr
      ⟨3, ⟨2, 2⟩, sized_threeValues, rfl, by decide, by decide, by decide, by decide⟩
    obtain ⟨hsized, hverified, g, hfits, hrestores⟩ := hdevice r e' hr
    have hcount : r.count = 3 := hsized.count_eq.trans sized_threeValues.count_eq.symm
    rw [hcount] at hfits hrestores
    cases hfits.covering_eq
    exact ⟨r, e', hr, hverified, hrestores⟩

end Copy

end BatchAxpby
