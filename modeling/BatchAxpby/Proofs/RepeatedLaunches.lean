import BatchAxpby.Proofs.Launch
import BatchAxpby.Proofs.Schedule

/-! # Repeated launches

Lanes that share no cell update their own cells once in every launch that has them, however the
lanes are grouped. A sequence of launches therefore iterates the update of a cell as often as
there are launches with the cell's lane.
-/

namespace BatchAxpby

namespace UpdateArgs

variable {α : Type} {args : UpdateArgs α}

theorem mem_touches {lane : ℕ} {t : Touch} : t ∈ args.touches lane ↔ lane < args.count ∧
    ∃ row < args.update.rows, ∃ col < args.update.cols,
      t = ⟨args.bases.baseA lane + (row + col * args.update.lda),
        args.bases.baseB lane + (row + col * args.update.ldb)⟩ := by
  unfold touches
  split_ifs with hl
  · rw [Update.mem_touches, and_iff_right hl]
  · simp [hl]

theorem updates_of_mem_touches {lane : ℕ} {t : Touch} (h : t ∈ args.touches lane) :
    lane < args.count ∧ args.Updates lane t.target := by
  obtain ⟨hl, row, hr, col, hc, rfl⟩ := mem_touches.mp h
  exact ⟨hl, row, hr, col, hc, rfl⟩

theorem Separate.nodup_targets (hd : args.Separate) (hld : args.update.rows ≤ args.update.ldb)
    (lanes : ℕ) : (((List.range lanes).flatMap args.touches).map Touch.target).Nodup := by
  rw [List.map_flatMap, List.nodup_flatMap]
  constructor
  · intro lane _
    unfold touches
    split_ifs
    · exact args.update.nodup_targets hld ..
    · exact List.nodup_nil
  · refine List.nodup_range.pairwise_of_forall_ne fun i _ j _ hij k hk hk' => ?_
    obtain ⟨s, hs, rfl⟩ := List.mem_map.mp hk
    obtain ⟨t, ht, hst⟩ := List.mem_map.mp hk'
    obtain ⟨hi, hsk⟩ := updates_of_mem_touches hs
    obtain ⟨hj, htk⟩ := updates_of_mem_touches ht
    exact hd i hi j hj hij _ hsk (hst ▸ htk)

variable [Scalar α]

def afterLanes (args : UpdateArgs α) (a : Array α) (lanes : ℕ) (b : Array α) : Array α :=
  args.update.touchAll a ((List.range lanes).flatMap args.touches) b

def afterLaunches (args : UpdateArgs α) (a : Array α) (gs : List Geometry) (b : Array α) :
    Array α :=
  gs.foldl (fun t g => args.afterLanes a g.lanes t) b

@[simp] theorem size_afterLanes (a : Array α) (lanes : ℕ) (b : Array α) :
    (args.afterLanes a lanes b).size = b.size :=
  Update.size_touchAll ..

@[simp] theorem afterLaunches_nil (a b : Array α) : args.afterLaunches a [] b = b := rfl

@[simp] theorem afterLaunches_cons (a : Array α) (g : Geometry) (gs : List Geometry)
    (b : Array α) : args.afterLaunches a (g :: gs) b =
      args.afterLaunches a gs (args.afterLanes a g.lanes b) := rfl

@[simp] theorem size_afterLaunches (a : Array α) (gs : List Geometry) (b : Array α) :
    (args.afterLaunches a gs b).size = b.size := by
  induction gs generalizing b with
  | nil => rfl
  | cons g gs ih => rw [afterLaunches_cons, ih, size_afterLanes]

theorem getElem?_afterLanes_of_forall_not {lanes k : ℕ}
    (h : ∀ lane < lanes, lane < args.count → ¬ args.Updates lane k) (a b : Array α) :
    (args.afterLanes a lanes b)[k]? = b[k]? := by
  apply Update.getElem?_touchAll_of_forall_ne
  rintro t ht rfl
  obtain ⟨lane, hlane, ht⟩ := List.mem_flatMap.mp ht
  obtain ⟨hl, hk⟩ := updates_of_mem_touches ht
  exact h lane (List.mem_range.mp hlane) hl hk

theorem getElem?_afterLaunches_of_forall_not {gs : List Geometry} {k : ℕ}
    (h : ∀ g ∈ gs, ∀ lane < g.lanes, lane < args.count → ¬ args.Updates lane k) (a b : Array α) :
    (args.afterLaunches a gs b)[k]? = b[k]? := by
  induction gs generalizing b with
  | nil => rfl
  | cons g gs ih =>
    rw [afterLaunches_cons, ih fun g hg => h g (List.mem_cons_of_mem _ hg),
      getElem?_afterLanes_of_forall_not (h g List.mem_cons_self)]

section Cells

variable (hd : args.Separate) (hld : args.update.rows ≤ args.update.ldb) {lane row col : ℕ}
  (hl : lane < args.count) (hr : row < args.update.rows) (hc : col < args.update.cols)
  (a b : Array α)

include hd hld hl hr hc

theorem getElem?_afterLanes (lanes : ℕ) :
    (args.afterLanes a lanes b)[args.bases.baseB lane + (row + col * args.update.ldb)]? =
      b[args.bases.baseB lane + (row + col * args.update.ldb)]?.map
        (if lane < lanes then
          args.update.newValue a (args.bases.baseA lane + (row + col * args.update.lda))
        else id) := by
  split_ifs with hlane
  · have hmem := List.mem_flatMap.mpr ⟨lane, List.mem_range.mpr hlane,
      mem_touches.mpr ⟨hl, row, hr, col, hc, rfl⟩⟩
    exact args.update.getElem?_touchAll_of_mem a (hd.nodup_targets hld lanes) hmem b
  · rw [Option.map_id, id]
    apply getElem?_afterLanes_of_forall_not
    intro other hother hcount hupdates
    exact hd lane hl other hcount (by omega) _ ⟨row, hr, col, hc, rfl⟩ hupdates

/-- A cell is updated once for each launch that has its lane. -/
theorem getElem?_afterLaunches (gs : List Geometry) :
    (args.afterLaunches a gs b)[args.bases.baseB lane + (row + col * args.update.ldb)]? =
      b[args.bases.baseB lane + (row + col * args.update.ldb)]?.map
        (args.update.newValue a (args.bases.baseA lane + (row + col * args.update.lda)))^[
          gs.countP (lane < ·.lanes)] := by
  induction gs generalizing b with
  | nil => simp
  | cons g gs ih =>
    rw [afterLaunches_cons, ih, getElem?_afterLanes hd hld hl hr hc, Option.map_map]
    by_cases hlane : lane < g.lanes
    · rw [List.countP_cons_of_pos (by simpa using hlane), if_pos hlane, Function.iterate_succ]
    · rw [List.countP_cons_of_neg (by simpa using hlane), if_neg hlane, Function.comp_id]

end Cells

/-- The buffer `out` is `b` with the cells of the lanes below `lanes` updated `n` times each, and
no other cell changed. -/
structure Iterates (args : UpdateArgs α) (a b : Array α) (lanes n : ℕ) (out : Array α) :
    Prop where
  size_eq : out.size = b.size
  cell : ∀ lane < lanes, ∀ row < args.update.rows, ∀ col < args.update.cols, ∃ x y,
    a[args.bases.baseA lane + (row + col * args.update.lda)]? = some x ∧
    b[args.bases.baseB lane + (row + col * args.update.ldb)]? = some y ∧
    out[args.bases.baseB lane + (row + col * args.update.ldb)]? =
      some ((Scalar.axpby args.update.alpha x args.update.beta)^[n] y)
  other : ∀ k, (∀ lane < lanes, ¬ args.Updates lane k) → out[k]? = b[k]?

theorem Fits.iterates {a b : Array α} (hfits : args.Fits a.size b.size) (hd : args.Separate)
    (hld : args.update.rows ≤ args.update.ldb) {gs : List Geometry} {lanes : ℕ}
    (hle : lanes ≤ args.count) (hlanes : ∀ g ∈ gs, min g.lanes args.count = lanes) :
    args.Iterates a b lanes gs.length (args.afterLaunches a gs b) where
  size_eq := args.size_afterLaunches a gs b
  cell lane hlane row hr col hc := by
    have hl : lane < args.count := hlane.trans_le hle
    obtain hx := Array.getElem?_eq_getElem (hfits.insideA lane hl row hr col hc)
    obtain hy := Array.getElem?_eq_getElem (hfits.insideB lane hl row hr col hc)
    have hcount : gs.countP (lane < ·.lanes) = gs.length := by
      rw [List.countP_eq_length]
      intro g hg
      have := hlanes g hg
      simp only [decide_eq_true_eq]
      omega
    refine ⟨_, _, hx, hy, ?_⟩
    rw [getElem?_afterLaunches hd hld hl hr hc, hcount, hy, Update.newValue_of_getElem? _ a hx]
    rfl
  other k hk := by
    apply getElem?_afterLaunches_of_forall_not
    intro g hg lane hlane hl
    have := hlanes g hg
    exact hk lane (by omega)

end UpdateArgs

namespace Emulator

variable {α : Type}

/-- The device `e'` is `e` with new cells in one buffer and further launches counted. -/
structure Advances (e : Emulator α) (buffer : ℕ) (cells : Array α) (launches active idle : ℕ)
    (e' : Emulator α) : Prop where
  holds : e'.Holds buffer cells
  others : ∀ k, buffer ≠ k → e'.buffers[k]? = e.buffers[k]?
  ledger : e'.ledger = e.ledger
  stats : e'.stats = e.stats.plus launches active idle

theorem Holds.advances {e : Emulator α} {j : ℕ} {b : Array α} (h : e.Holds j b) :
    e.Advances j b 0 0 0 e :=
  ⟨h, fun _ _ => rfl, rfl, rfl⟩

theorem Holds.advances_launched {e : Emulator α} {j : ℕ} {b : Array α} (h : e.Holds j b)
    (cells : Array α) (active idle : ℕ) :
    e.Advances j cells 1 active idle (e.launched j cells active idle) :=
  ⟨h.launched .., fun _ hk => (e.getElem?_withCells ..).trans (if_neg hk), rfl, rfl⟩

theorem Advances.trans {e e' e'' : Emulator α} {j : ℕ} {b b' : Array α} {m n x x' y y' : ℕ}
    (h : e.Advances j b m x y e') (h' : e'.Advances j b' n x' y' e'') :
    e.Advances j b' (m + n) (x + x') (y + y') e'' where
  holds := h'.holds
  others k hk := (h'.others k hk).trans (h.others k hk)
  ledger := h'.ledger.trans h.ledger
  stats := by rw [h'.stats, h.stats, LaunchStats.plus_plus]

theorem Advances.holds_of_ne {e e' : Emulator α} {i j : ℕ} {a b : Array α} {n x y : ℕ}
    (h : e.Advances j b n x y e') (hij : i ≠ j) (hA : e.Holds i a) : e'.Holds i a := by
  obtain ⟨live, hA⟩ := hA
  exact ⟨live, (h.others i hij.symm).trans hA⟩

end Emulator

section Launches

variable {α : Type} [Scalar α] {args : UpdateArgs α} {a : Array α} {limit i j : ℕ}

def UpdateArgs.activeLanes (args : UpdateArgs α) (gs : List Geometry) : ℕ :=
  (gs.map fun g => min g.lanes args.count).sum

def UpdateArgs.idleLanes (args : UpdateArgs α) (gs : List Geometry) : ℕ :=
  (gs.map fun g => g.lanes - min g.lanes args.count).sum

theorem launch_advances_of_runLanes {kernel : Kernel α} {e : Emulator α} {b out : Array α}
    {g : Geometry} {active : ℕ} (hB : e.Holds j b) (hcheck : g.check limit = .ok ())
    (hrun : Emulator.runLanes kernel g g.lanes e = .ok active (e.withCells j out))
    (hactive : active ≤ g.lanes) :
    (e.stats.Room 1 active (g.lanes - active) ∧
      ∃ e', Emulator.launch limit kernel g e = .ok () e' ∧
        e.Advances j out 1 active (g.lanes - active) e') ∨
    (¬ e.stats.Room 1 active (g.lanes - active) ∧
      ∃ e', Emulator.launch limit kernel g e = .error (.fault .overflow) e') := by
  by_cases hroom : e.stats.Room 1 active (g.lanes - active)
  · exact .inl ⟨hroom, _, Emulator.launch_eq_ok hcheck hrun hactive hroom,
      hB.advances_launched ..⟩
  · exact .inr ⟨hroom, _, Emulator.launch_eq_overflow hcheck hrun hactive hroom⟩

theorem launch_advances (hij : i ≠ j) {e : Emulator α} {b out : Array α} {g : Geometry}
    (hlanes : Lane.runAll (Lane.update args a) g.lanes b = .ok (min g.lanes args.count) out)
    (hcheck : g.check limit = .ok ()) (hA : e.Holds i a) (hB : e.Holds j b) :
    (e.stats.Room 1 (min g.lanes args.count) (g.lanes - min g.lanes args.count) ∧
      ∃ e', Emulator.launch limit (.update args i j) g e = .ok () e' ∧
        e.Advances j out 1 (min g.lanes args.count) (g.lanes - min g.lanes args.count) e') ∨
    (¬ e.stats.Room 1 (min g.lanes args.count) (g.lanes - min g.lanes args.count) ∧
      ∃ e', Emulator.launch limit (.update args i j) g e = .error (.fault .overflow) e') :=
  launch_advances_of_runLanes hB hcheck (Emulator.runLanes_update hij hA hB g hlanes)
    (Nat.min_le_left ..)

theorem launches_advance (hij : i ≠ j) {gs : List Geometry} {e : Emulator α} {b : Array α}
    (hfits : args.Fits a.size b.size) (hcheck : ∀ g ∈ gs, g.check limit = .ok ())
    (hA : e.Holds i a) (hB : e.Holds j b) (hcounts : e.stats.Room 0 0 0) :
    (e.stats.Room gs.length (args.activeLanes gs) (args.idleLanes gs) ∧
      ∃ e', forM gs (Emulator.launch limit (.update args i j)) e = .ok () e' ∧
        e.Advances j (args.afterLaunches a gs b) gs.length (args.activeLanes gs)
          (args.idleLanes gs) e') ∨
    (¬ e.stats.Room gs.length (args.activeLanes gs) (args.idleLanes gs) ∧
      ∃ e', forM gs (Emulator.launch limit (.update args i j)) e =
        .error (.fault .overflow) e') := by
  induction gs generalizing e b with
  | nil => exact .inl ⟨hcounts, e, rfl, hB.advances⟩
  | cons g gs ih =>
    rw [List.length_cons, Nat.add_comm gs.length]
    rcases launch_advances hij (hfits.runAll_eq_ok g.lanes) (hcheck g List.mem_cons_self) hA hB
      with ⟨hroom, e₁, hlaunch, hfirst⟩ | ⟨hroom, e₁, hlaunch⟩
    -- The first launch leaves a device that holds the operands for the others.
    · have hrest := ih (e := e₁) (b := args.afterLanes a g.lanes b) (by rwa [args.size_afterLanes])
        (fun g hg => hcheck g (List.mem_cons_of_mem _ hg)) (hfirst.holds_of_ne hij hA)
        hfirst.holds (hfirst.stats ▸ LaunchStats.room_plus.mpr hroom)
      rw [hfirst.stats, LaunchStats.room_plus] at hrest
      rw [forM_cons_of_ok hlaunch]
      rcases hrest with ⟨hroom, e₂, hlaunches, hmore⟩ | hrest
      · exact .inl ⟨hroom, e₂, hlaunches, hfirst.trans hmore⟩
      · exact .inr hrest
    · refine .inr ⟨fun hmore => hroom (hmore.mono (Nat.le_add_right ..) ?_ ?_), e₁, ?_⟩
      · exact Nat.le_add_right ..
      · exact Nat.le_add_right ..
      · rw [List.forM_cons, bind_of_error hlaunch]

omit [Scalar α] in
theorem UpdateArgs.activeLanes_add_idleLanes (args : UpdateArgs α) (gs : List Geometry) :
    args.activeLanes gs + args.idleLanes gs = (gs.map Geometry.lanes).sum := by
  induction gs with
  | nil => rfl
  | cons g gs ih =>
    simp only [activeLanes, idleLanes, List.map_cons, List.sum_cons] at ih ⊢
    omega

omit [Scalar α] in
theorem UpdateArgs.activeLanes_eq {gs : List Geometry} {lanes : ℕ}
    (h : ∀ g ∈ gs, min g.lanes args.count = lanes) :
    args.activeLanes gs = gs.length * lanes := by
  rw [activeLanes, List.map_congr_left h, List.map_const', List.sum_replicate_nat]

theorem launches_iterate (hij : i ≠ j) {e : Emulator α} {b : Array α} {gs : List Geometry}
    {lanes : ℕ} (hfits : args.Fits a.size b.size) (hd : args.Separate)
    (hld : args.update.rows ≤ args.update.ldb) (hcheck : ∀ g ∈ gs, g.check limit = .ok ())
    (hA : e.Holds i a) (hB : e.Holds j b) (hcounts : e.stats.Room 0 0 0)
    (hle : lanes ≤ args.count) (hlanes : ∀ g ∈ gs, min g.lanes args.count = lanes) :
    (e.stats.Room gs.length (gs.length * lanes)
        ((gs.map Geometry.lanes).sum - gs.length * lanes) ∧
      ∃ out e', forM gs (Emulator.launch limit (.update args i j)) e = .ok () e' ∧
        e.Advances j out gs.length (gs.length * lanes)
          ((gs.map Geometry.lanes).sum - gs.length * lanes) e' ∧
        args.Iterates a b lanes gs.length out) ∨
    (¬ e.stats.Room gs.length (gs.length * lanes)
        ((gs.map Geometry.lanes).sum - gs.length * lanes) ∧
      ∃ e', forM gs (Emulator.launch limit (.update args i j)) e =
        .error (.fault .overflow) e') := by
  have hactive := UpdateArgs.activeLanes_eq hlanes
  have hidle : args.idleLanes gs = (gs.map Geometry.lanes).sum - gs.length * lanes := by
    have := args.activeLanes_add_idleLanes gs
    omega
  rw [← hidle, ← hactive]
  rcases launches_advance hij hfits hcheck hA hB hcounts with ⟨hroom, e', hrun, hadv⟩ | hover
  · exact .inl ⟨hroom, _, e', hrun, hadv, hfits.iterates hd hld hle hlanes⟩
  · exact .inr hover

/-- Launches that cover the elements iterate the update of every cell that a lane owns, whatever
their geometries are. A launch with fewer lanes than elements updates the elements that have a
lane. Either way the device is otherwise as before, with all lanes counted, or a counter
overflows. -/
theorem launches_compose {args : UpdateArgs α} {a b : Array α}
    (hfits : args.Fits a.size b.size) (hseparate : args.Separate)
    (hld : args.update.rows ≤ args.update.ldb) (host : Host) (spec : EmulatorSpec)
    {e : Emulator α} {i j : ℕ} (hij : i ≠ j) (hA : e.Holds i a) (hB : e.Holds j b)
    (hcounts : e.stats.Room 0 0 0) :
    (∀ gs : List Geometry,
      (∀ g ∈ gs, g.check spec.maxGroup = .ok () ∧ args.count ≤ g.lanes) →
      ∀ active idle, active = gs.length * args.count →
        idle = (gs.map Geometry.lanes).sum - gs.length * args.count →
      (e.stats.Room gs.length active idle ∧
        ∃ out e', forM gs ((emulator host spec).launch (.update args i j)) e = .ok () e' ∧
          e.Advances j out gs.length active idle e' ∧
          args.Iterates a b args.count gs.length out) ∨
      (¬ e.stats.Room gs.length active idle ∧
        ∃ e', forM gs ((emulator host spec).launch (.update args i j)) e =
          .error (.fault .overflow) e')) ∧
    (∀ g : Geometry, g.check spec.maxGroup = .ok () → g.lanes < args.count →
      (e.stats.Room 1 g.lanes 0 ∧
        ∃ out e', (emulator host spec).launch (.update args i j) g e = .ok () e' ∧
          e.Advances j out 1 g.lanes 0 e' ∧
          args.Iterates a b g.lanes 1 out) ∨
      (¬ e.stats.Room 1 g.lanes 0 ∧
        ∃ e', (emulator host spec).launch (.update args i j) g e =
          .error (.fault .overflow) e')) := by
  constructor
  · rintro gs hgs active idle rfl rfl
    exact launches_iterate hij hfits hseparate hld (fun g hg => (hgs g hg).1) hA hB hcounts le_rfl
      fun g hg => Nat.min_eq_right (hgs g hg).2
  · intro g hcheck hlt
    have hmin : min g.lanes args.count = g.lanes := Nat.min_eq_left hlt.le
    have honce : args.Iterates a b g.lanes [g].length (args.afterLaunches a [g] b) :=
      hfits.iterates hseparate hld hlt.le (by simpa using hmin)
    have hlaunch := launch_advances hij (hfits.runAll_eq_ok g.lanes) hcheck hA hB
    rw [hmin, Nat.sub_self] at hlaunch
    rcases hlaunch with ⟨hroom, e', hlaunch, hadv⟩ | hover
    · exact .inl ⟨hroom, _, e', hlaunch, hadv, honce⟩
    · exact .inr hover

end Launches

/-- Three blocks of two by two cells, spread over `B` from the last to the first. -/
def spread : UpdateArgs Float32 where
  update :=
    { rows := 2, cols := 2, alpha := 2, beta := 3, lda := 1, ldb := 3,
      layoutA := .plain, layoutB := .transposed }
  bases := .indirect #[0, 1, 0] #[12, 6, 0]
  count := 3

def spreadDevice : Emulator Float32 where
  ledger := ⟨1024, 84⟩
  buffers := #[⟨#[1, 2, 3, 4], true⟩, ⟨Array.replicate 17 5, true⟩]

/-- One group of four lanes and then three groups of one lane update the last cell of the last
element twice. Two groups of one lane leave that element alone and update the second one. -/
theorem spread_launches_compose :
    (∃ out e', forM [⟨1, 4⟩, ⟨3, 1⟩]
        ((emulator Host.standard {}).launch (.update spread 0 1)) spreadDevice = .ok () e' ∧
      spreadDevice.Advances 1 out 2 6 1 e' ∧
      out[4]? = some (Scalar.axpby 2 3 3 (Scalar.axpby 2 3 3 5)) ∧ out[5]? = some 5) ∧
    (∃ out e', (emulator Host.standard {}).launch (.update spread 0 1) ⟨2, 1⟩ spreadDevice =
        .ok () e' ∧ spreadDevice.Advances 1 out 1 2 0 e' ∧
      out[4]? = some 5 ∧ out[10]? = some (Scalar.axpby 2 4 3 5)) := by
  have hfits : spread.Fits (#[1, 2, 3, 4] : Array Float32).size
      (Array.replicate 17 (5 : Float32)).size :=
    { rows_pos := by decide
      cols_pos := by decide
      lists := ⟨by decide, by decide⟩
      insideA := by decide
      insideB := by decide
      sizeA_lt := by decide
      sizeB_lt := by decide }
  have hbase : ∀ lane < 3, spread.bases.baseB lane = 12 - 6 * lane := by decide
  have hseparate : spread.Separate := by
    rintro i hi j hj hij k ⟨row, hr, col, hc, rfl⟩ ⟨row', hr', col', hc', h⟩
    rw [hbase i hi, hbase j hj] at h
    simp only [spread] at hi hj hr hc hr' hc' h
    omega
  obtain ⟨hcover, hshort⟩ := launches_compose hfits hseparate (by decide) Host.standard {}
    (e := spreadDevice) (show 0 ≠ 1 by decide) ⟨true, rfl⟩ ⟨true, rfl⟩
    ⟨by decide, by decide, by decide⟩
  constructor
  · obtain ⟨-, out, e', hrun, hadv, hout⟩ | ⟨hroom, -⟩ :=
      hcover [⟨1, 4⟩, ⟨3, 1⟩] (by decide) 6 1 rfl rfl
    · obtain ⟨x, y, hx, hy, hcell⟩ := hout.cell 2 (by decide) 1 (by decide) 1 (by decide)
      cases hx
      cases hy
      refine ⟨out, e', hrun, hadv, hcell, hout.other 5 ?_⟩
      rintro lane hl ⟨row, hr, col, hc, h⟩
      rw [hbase lane hl] at h
      simp only [spread] at hl hr hc h
      omega
    · exact absurd ⟨by decide, by decide, by decide⟩ hroom
  · obtain ⟨-, out, e', hrun, hadv, hout⟩ | ⟨hroom, -⟩ := hshort ⟨2, 1⟩ (by decide) (by decide)
    · obtain ⟨x, y, hx, hy, hcell⟩ := hout.cell 1 (by decide) 1 (by decide) 1 (by decide)
      cases hx
      cases hy
      refine ⟨out, e', hrun, hadv, hout.other 4 ?_, hcell⟩
      rintro lane hl ⟨row, hr, col, hc, h⟩
      have hl : lane < 2 := hl
      rw [hbase lane (by omega)] at h
      simp only [spread] at hr hc h
      omega
    · exact absurd ⟨by decide, by decide, by decide⟩ hroom

end BatchAxpby
