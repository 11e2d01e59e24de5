import Mathlib.Algebra.Order.Floor.Div
import BatchAxpby.Device.Emulator
import BatchAxpby.Proofs.Lanes

/-! # Launches

A launch that passes the check runs all its lanes on the cells of one buffer and counts them.
Every other buffer, and the ledger, stay as they were.
-/

namespace BatchAxpby

theorem device_bind_of_fault_ok {σ β γ : Type} {x : Except Fault β} {v : β} (h : x = .ok v)
    (f : β → DeviceM σ γ) (s : σ) : ((liftM x : DeviceM σ β) >>= f) s = f v s := by
  subst h; rfl

theorem device_bind_of_error_ok {σ β γ : Type} {x : Except Error β} {v : β} (h : x = .ok v)
    (f : β → DeviceM σ γ) (s : σ) : ((liftM x : DeviceM σ β) >>= f) s = f v s := by
  subst h; rfl

section Inversion

variable {σ β γ : Type} {f : β → DeviceM σ γ} {s t : σ} {r : γ} {error : Error}

theorem device_bind_fault_eq_ok {x : Except Fault β} :
    ((liftM x : DeviceM σ β) >>= f) s = .ok r t ↔ ∃ v, x = .ok v ∧ f v s = .ok r t := by
  cases x with
  | ok v => exact ⟨fun h => ⟨v, rfl, h⟩, fun ⟨_, hv, h⟩ => by cases hv; exact h⟩
  | error e => exact ⟨(nomatch ·), fun ⟨_, hv, _⟩ => nomatch hv⟩

theorem device_bind_error_eq_ok {x : Except Error β} :
    ((liftM x : DeviceM σ β) >>= f) s = .ok r t ↔ ∃ v, x = .ok v ∧ f v s = .ok r t := by
  cases x with
  | ok v => exact ⟨fun h => ⟨v, rfl, h⟩, fun ⟨_, hv, h⟩ => by cases hv; exact h⟩
  | error e => exact ⟨(nomatch ·), fun ⟨_, hv, _⟩ => nomatch hv⟩

theorem device_bind_fault_eq_refused {x : Except Fault β}
    (h : ((liftM x : DeviceM σ β) >>= f) s = .error (.refused error) t) :
    ∃ v, x = .ok v ∧ f v s = .error (.refused error) t := by
  cases x with
  | ok v => exact ⟨v, rfl, h⟩
  | error e => exact nomatch h

theorem device_bind_error_eq_refused {x : Except Error β}
    (h : ((liftM x : DeviceM σ β) >>= f) s = .error (.refused error) t) :
    x = .error error ∧ t = s ∨ ∃ v, x = .ok v ∧ f v s = .error (.refused error) t := by
  cases x with
  | ok v => exact Or.inr ⟨v, rfl, h⟩
  | error e =>
    cases h
    exact Or.inl ⟨rfl, rfl⟩

theorem device_lift_fault_eq_ok {x : Except Fault β} {v : β}
    (h : (liftM x : DeviceM σ β) s = .ok v t) : x = .ok v ∧ t = s := by
  cases x with
  | ok w =>
    cases h
    exact ⟨rfl, rfl⟩
  | error e => exact nomatch h

theorem device_lift_fault_ne_refused {x : Except Fault β} :
    (liftM x : DeviceM σ β) s ≠ .error (.refused error) t := by
  cases x with
  | ok v => exact nofun
  | error e => exact nofun

end Inversion

namespace Geometry

variable {g : Geometry} {limit lanes block : ℕ}

theorem check_eq_ok_iff : g.check limit = .ok () ↔
    0 < g.grid ∧ 0 < g.block ∧ g.block ≤ limit ∧ g.lanes < Word.bound := by
  unfold check
  split_ifs with hempty hgroup hlanes
  · exact ⟨nofun, fun h => by omega⟩
  · exact ⟨nofun, fun h => by omega⟩
  · exact ⟨nofun, fun h => absurd h.2.2.2 (Nat.not_lt.mpr hlanes)⟩
  · exact ⟨fun _ => ⟨by omega, by omega, Nat.not_lt.mp hgroup, Nat.lt_of_not_le hlanes⟩,
      fun _ => rfl⟩

theorem lanes_lt_of_check (h : g.check limit = .ok ()) : g.lanes < Word.bound :=
  (check_eq_ok_iff.mp h).2.2.2

theorem totalLanes_of_check (h : g.check limit = .ok ()) :
    g.totalLanes = .ok g.lanes :=
  Word.mul_eq_ok_iff.mpr ⟨lanes_lt_of_check h, rfl⟩

theorem check_cases (g : Geometry) (limit : ℕ) :
    (∃ reason, g.check limit = .error (.launch reason)) ∨ g.check limit = .ok () := by
  unfold check
  split_ifs
  · exact Or.inl ⟨_, rfl⟩
  · exact Or.inl ⟨_, rfl⟩
  · exact Or.inl ⟨_, rfl⟩
  · exact Or.inr rfl

theorem cover_cases (lanes block : ℕ) :
    cover lanes block = .error .emptyBlock ∨ ∃ g, cover lanes block = .ok g := by
  unfold cover
  split_ifs
  · exact Or.inl rfl
  · exact Or.inr ⟨_, rfl⟩

theorem cover_eq_ok (lanes : ℕ) (hblock : 0 < block) :
    cover lanes block = .ok ⟨max (lanes ⌈/⌉ block) 1, block⟩ := by
  rw [cover, if_neg hblock.ne', Nat.ceilDiv_eq_add_pred_div]

/-- A covering geometry has the fewest groups that hold the lanes, but at least one. -/
theorem isLeast_of_cover (h : cover lanes block = .ok g) :
    0 < g.block ∧ IsLeast {grid | 1 ≤ grid ∧ lanes ≤ grid * g.block} g.grid := by
  rcases block.eq_zero_or_pos with rfl | hblock
  · exact nomatch h
  · cases (cover_eq_ok lanes hblock).symm.trans h
    refine ⟨hblock, ⟨le_max_right .., ?_⟩, ?_⟩
    · rw [Nat.mul_comm]
      exact (ceilDiv_le_iff_le_mul hblock).mp (le_max_left ..)
    · rintro grid ⟨hpos, hlanes⟩
      rw [Nat.mul_comm] at hlanes
      exact max_le ((ceilDiv_le_iff_le_mul hblock).mpr hlanes) hpos

theorem lanes_lt_of_cover (h : cover lanes block = .ok g) :
    g.lanes < max lanes 1 + g.block := by
  obtain ⟨-, ⟨hpos, -⟩, hleast⟩ := isLeast_of_cover h
  obtain ⟨fewer, hgrid⟩ := Nat.exists_eq_add_of_le' hpos
  -- One group less is no group, or does not hold the lanes.
  have hfewer : fewer * g.block < max lanes 1 := by
    by_contra hge
    have hsome : 0 < fewer := Nat.pos_of_mul_pos_right (show 0 < fewer * g.block by omega)
    have hle : g.grid ≤ fewer := hleast ⟨hsome, by omega⟩
    omega
  rw [Geometry.lanes, hgrid, Nat.succ_mul]
  omega

theorem lanes_le_of_cover (h : cover lanes block = .ok g) : lanes ≤ g.lanes :=
  (isLeast_of_cover h).2.1.2

theorem lanes_pos_of_cover (h : cover lanes block = .ok g) : 0 < g.lanes := by
  obtain ⟨hblock, ⟨hgrid, -⟩, -⟩ := isLeast_of_cover h
  exact Nat.mul_pos hgrid hblock

theorem idle_lt_of_cover (h : cover lanes block = .ok g) (hlanes : 0 < lanes) :
    g.lanes - lanes < g.block := by
  have hle := lanes_le_of_cover h
  have hlt := lanes_lt_of_cover h
  omega

end Geometry

namespace LaunchStats

def plus (s : LaunchStats) (launches active idle : ℕ) : LaunchStats :=
  ⟨s.launches + launches, s.active + active, s.idle + idle⟩

def Room (s : LaunchStats) (launches active idle : ℕ) : Prop :=
  s.launches + launches < Word.bound ∧ s.active + active < Word.bound ∧
    s.idle + idle < Word.bound

theorem room_of_check {g : Geometry} {limit : ℕ} (h : g.check limit = .ok ()) {active : ℕ}
    (ha : active ≤ g.lanes) : Room {} 1 active (g.lanes - active) := by
  have hlt := Geometry.lanes_lt_of_check h
  refine ⟨by decide, ?_, ?_⟩ <;> simp only <;> omega

theorem record_eq_ok {s : LaunchStats} {active idle : ℕ} (h : s.Room 1 active idle) :
    s.record active idle = .ok (s.plus 1 active idle) := by
  obtain ⟨hl, ha, hi⟩ := h
  rw [record, Word.add_eq_ok_iff.mpr ⟨hl, rfl⟩, Word.add_eq_ok_iff.mpr ⟨ha, rfl⟩,
    Word.add_eq_ok_iff.mpr ⟨hi, rfl⟩]
  rfl

theorem record_eq_overflow {s : LaunchStats} {active idle : ℕ} (h : ¬ s.Room 1 active idle) :
    s.record active idle = .error .overflow := by
  unfold record Word.add
  by_cases hl : s.launches + 1 < Word.bound
  · rw [if_pos hl, except_bind_of_ok rfl]
    by_cases ha : s.active + active < Word.bound
    · rw [if_pos ha, except_bind_of_ok rfl, if_neg fun hi => h ⟨hl, ha, hi⟩]
      rfl
    · rw [if_neg ha]
      rfl
  · rw [if_neg hl]
    rfl

theorem record_eq_ok_imp {s s' : LaunchStats} {active idle : ℕ}
    (h : s.record active idle = .ok s') : s' = s.plus 1 active idle := by
  by_cases hroom : s.Room 1 active idle
  · rw [record_eq_ok hroom] at h
    cases h
    rfl
  · rw [record_eq_overflow hroom] at h
    exact nomatch h

theorem room_plus {s : LaunchStats} {m n x x' y y' : ℕ} :
    (s.plus m x y).Room n x' y' ↔ s.Room (m + n) (x + x') (y + y') := by
  simp only [Room, plus, Nat.add_assoc]

theorem plus_plus (s : LaunchStats) (m n x x' y y' : ℕ) :
    (s.plus m x y).plus n x' y' = s.plus (m + n) (x + x') (y + y') := by
  simp only [plus, Nat.add_assoc]

theorem room_succ {s : LaunchStats} {n x y : ℕ} :
    s.Room (n + 1) ((n + 1) * x) ((n + 1) * y) ↔ (s.plus 1 x y).Room n (n * x) (n * y) := by
  rw [room_plus]
  simp only [Nat.add_mul, Nat.one_mul, Nat.add_comm]

theorem Room.mono {s : LaunchStats} {m n x x' y y' : ℕ} (h : s.Room n x' y') (hn : m ≤ n)
    (hx : x ≤ x') (hy : y ≤ y') : s.Room m x y := by
  obtain ⟨hl, ha, hi⟩ := h
  exact ⟨by omega, by omega, by omega⟩

theorem Room.of_succ {s : LaunchStats} {n x y : ℕ}
    (h : s.Room (n + 1) ((n + 1) * x) ((n + 1) * y)) : s.Room 1 x y :=
  h.mono (by omega) (Nat.le_mul_of_pos_left x n.succ_pos) (Nat.le_mul_of_pos_left y n.succ_pos)

end LaunchStats

namespace Emulator

variable {α : Type}

def withCells (e : Emulator α) (buffer : ℕ) (cells : Array α) : Emulator α :=
  { e with buffers := e.buffers.modify buffer fun b => { b with cells } }

/-- The cells of buffer `i` are `data`. -/
def Holds (e : Emulator α) (i : ℕ) (data : Array α) : Prop :=
  ∃ live, e.buffers[i]? = some ⟨data, live⟩

theorem Holds.cells_eq {e : Emulator α} {i : ℕ} {data : Array α} (h : e.Holds i data) :
    e.cells i = data := by
  obtain ⟨live, h⟩ := h
  rw [cells, h]

theorem getElem?_withCells (e : Emulator α) (i : ℕ) (data : Array α) (j : ℕ) :
    (e.withCells i data).buffers[j]? =
      if i = j then e.buffers[j]?.map fun b => { b with cells := data } else e.buffers[j]? :=
  Array.getElem?_modify

theorem Holds.withCells {e : Emulator α} {i : ℕ} {data : Array α} (h : e.Holds i data)
    (data' : Array α) : (e.withCells i data').Holds i data' := by
  obtain ⟨live, h⟩ := h
  refine ⟨live, ?_⟩
  rw [getElem?_withCells, if_pos rfl, h]
  rfl

theorem Holds.withCells_of_ne {e : Emulator α} {i j : ℕ} {data : Array α} (h : e.Holds i data)
    (hij : j ≠ i) (data' : Array α) : (e.withCells j data').Holds i data := by
  obtain ⟨live, h⟩ := h
  exact ⟨live, by rw [getElem?_withCells, if_neg hij, h]⟩

theorem onCells_of_holds {β : Type} {e : Emulator α} {i : ℕ} {data : Array α} (h : e.Holds i data)
    (work : EStateM Fault (Array α) β) : onCells i work e =
      match work data with
      | .ok x data' => .ok x (e.withCells i data')
      | .error fault data' => .error (.fault fault) (e.withCells i data') := by
  obtain ⟨live, h⟩ := h
  -- The cells are taken out of the device while the work runs.
  have htable (data' : Array α) : (e.buffers.setIfInBounds i ⟨#[], live⟩).setIfInBounds i
      ⟨data', live⟩ = (e.withCells i data').buffers := by
    apply Array.ext_getElem?
    intro j
    rw [getElem?_withCells]
    by_cases hj : i = j
    · subst hj
      obtain ⟨hlt, hi⟩ := Array.getElem?_eq_some_iff.mp h
      simp [hlt, hi]
    · simp [hj]
  simp only [onCells, h, htable]
  cases work data <;> rfl

theorem onCells_eq_ok {β : Type} {e : Emulator α} {i : ℕ} {data : Array α} (h : e.Holds i data)
    {work : EStateM Fault (Array α) β} {x : β} {data' : Array α} (hw : work data = .ok x data') :
    onCells i work e = .ok x (e.withCells i data') := by
  rw [onCells_of_holds h, hw]

theorem onCells_eq_ok_imp {β : Type} {e e' : Emulator α} {i : ℕ}
    {work : EStateM Fault (Array α) β} {x : β} (h : onCells i work e = .ok x e') :
    ∃ data data', e.Holds i data ∧ work data = .ok x data' ∧ e' = e.withCells i data' := by
  cases hb : e.buffers[i]? with
  | none => simp [onCells, hb] at h
  | some b =>
    have hholds : e.Holds i b.cells := ⟨b.live, hb⟩
    cases hw : work b.cells with
    | error f t => simp [onCells, hb, hw] at h
    | ok y t =>
      rw [onCells_eq_ok hholds hw] at h
      cases h
      exact ⟨b.cells, t, hholds, hw, rfl⟩

theorem onCells_ne_refused {β : Type} {e e' : Emulator α} {i : ℕ}
    {work : EStateM Fault (Array α) β} {error : Error} :
    onCells i work e ≠ .error (.refused error) e' := by
  unfold onCells
  cases e.buffers[i]? with
  | none => nofun
  | some b =>
    cases hw : work b.cells <;> simp [hw]

def launched (e : Emulator α) (buffer : ℕ) (cells : Array α) (active idle : ℕ) : Emulator α :=
  { e.withCells buffer cells with stats := e.stats.plus 1 active idle }

theorem Holds.launched {e : Emulator α} {i : ℕ} {data : Array α} (h : e.Holds i data)
    (data' : Array α) (active idle : ℕ) : (e.launched i data' active idle).Holds i data' :=
  h.withCells data'

theorem Holds.launched_of_ne {e : Emulator α} {i j : ℕ} {data : Array α} (h : e.Holds i data)
    (hij : j ≠ i) (data' : Array α) (active idle : ℕ) :
    (e.launched j data' active idle).Holds i data :=
  h.withCells_of_ne hij data'

variable [Scalar α]

theorem launch_eq_refused {kernel : Kernel α} {g : Geometry} {limit : ℕ} {error : Error}
    (h : g.check limit = .error error) (e : Emulator α) :
    launch limit kernel g e = .error (.refused error) e := by
  rw [launch, h]
  rfl

theorem launch_eq_record {e : Emulator α} {kernel : Kernel α} {g : Geometry} {limit : ℕ}
    (hcheck : g.check limit = .ok ()) {active j : ℕ} {data : Array α}
    (hrun : runLanes kernel g g.lanes e = .ok active (e.withCells j data))
    (hactive : active ≤ g.lanes) :
    launch limit kernel g e =
      match e.stats.record active (g.lanes - active) with
      | .ok stats => .ok () { e.withCells j data with stats }
      | .error fault => .error (.fault fault) (e.withCells j data) := by
  rw [launch, device_bind_of_error_ok hcheck,
    device_bind_of_fault_ok (Geometry.totalLanes_of_check hcheck), bind_of_ok hrun,
    device_bind_of_fault_ok (Word.sub_eq_ok_iff.mpr ⟨hactive, rfl⟩)]
  change ((liftM (e.stats.record active (g.lanes - active)) :
    DeviceM (Emulator α) LaunchStats) >>= _) (e.withCells j data) = _
  cases e.stats.record active (g.lanes - active) <;> rfl

theorem launch_eq_ok {e : Emulator α} {kernel : Kernel α} {g : Geometry} {limit : ℕ}
    (hcheck : g.check limit = .ok ()) {active j : ℕ} {data : Array α}
    (hrun : runLanes kernel g g.lanes e = .ok active (e.withCells j data))
    (hactive : active ≤ g.lanes)
    (hroom : e.stats.Room 1 active (g.lanes - active)) :
    launch limit kernel g e = .ok () (e.launched j data active (g.lanes - active)) := by
  rw [launch_eq_record hcheck hrun hactive, LaunchStats.record_eq_ok hroom]
  rfl

theorem launch_eq_overflow {e : Emulator α} {kernel : Kernel α} {g : Geometry} {limit : ℕ}
    (hcheck : g.check limit = .ok ()) {active j : ℕ} {data : Array α}
    (hrun : runLanes kernel g g.lanes e = .ok active (e.withCells j data))
    (hactive : active ≤ g.lanes)
    (hroom : ¬ e.stats.Room 1 active (g.lanes - active)) :
    launch limit kernel g e = .error (.fault .overflow) (e.withCells j data) := by
  rw [launch_eq_record hcheck hrun hactive, LaunchStats.record_eq_overflow hroom]

theorem runLanes_update {e : Emulator α} {args : UpdateArgs α} {i j : ℕ} (hij : i ≠ j)
    {a b : Array α} (hA : e.Holds i a) (hB : e.Holds j b) (g : Geometry) {lanes active : ℕ}
    {data : Array α} (h : Lane.runAll (Lane.update args a) lanes b = .ok active data) :
    runLanes (.update args i j) g lanes e = .ok active (e.withCells j data) := by
  simp only [runLanes, if_neg hij, hA.cells_eq]
  exact onCells_eq_ok hB h

theorem roundTripGroups_go_eq_ok_imp {magic : α} {repeats : ℕ} {g : Geometry}
    {remaining group active total : ℕ} {s t : Array α}
    (h : roundTripGroups.go magic repeats g remaining group active s = .ok total t) :
    t.size = s.size ∧ total ≤ active + remaining * g.block := by
  induction remaining generalizing group active s with
  | zero =>
    cases h
    exact ⟨rfl, Nat.le_add_right ..⟩
  | succ remaining ih =>
    rw [Nat.succ_mul]
    rw [roundTripGroups.go] at h
    cases hbase : Word.mul group g.block with
    | error fault => simp [hbase] at h
    | ok base =>
      simp only [hbase] at h
      split_ifs at h
      · obtain ⟨hsize, hle⟩ := ih h
        exact ⟨hsize, by omega⟩
      · cases hrun : Lane.runAll (Lane.roundTrip magic repeats base) g.block
            ⟨Array.replicate g.block Scalar.zero, s⟩ with
        | error e after => simp [hrun] at h
        | ok ran after =>
          simp only [hrun] at h
          obtain ⟨hsize, hle⟩ := ih h
          have hran := Lane.runAll_le hrun
          exact ⟨hsize.trans (Lane.size_of_runAll_roundTrip hrun), by omega⟩

theorem runLanes_update_imp {e e' : Emulator α} {args : UpdateArgs α} {i j : ℕ} {g : Geometry}
    {lanes active : ℕ} (h : runLanes (.update args i j) g lanes e = .ok active e') :
    active = min lanes args.count ∧
      ∃ data data', e.Holds j data ∧ data'.size = data.size ∧ e' = e.withCells j data' := by
  simp only [runLanes] at h
  split_ifs at h
  obtain ⟨data, data', hholds, hrun, rfl⟩ := onCells_eq_ok_imp h
  obtain ⟨hactive, hsize⟩ := Lane.runAll_update hrun
  exact ⟨hactive, data, data', hholds, hsize, rfl⟩

theorem runLanes_eq_ok_imp {e e' : Emulator α} {kernel : Kernel α} {g : Geometry}
    {lanes active : ℕ} (h : runLanes kernel g lanes e = .ok active e') :
    ∃ j data data', e.Holds j data ∧ data'.size = data.size ∧ e' = e.withCells j data' := by
  cases kernel with
  | update args a b => exact ⟨b, (runLanes_update_imp h).2⟩
  | copy target source len =>
    simp only [runLanes] at h
    split_ifs at h
    obtain ⟨data, data', hholds, hrun, rfl⟩ := onCells_eq_ok_imp h
    exact ⟨target, data, data', hholds, Lane.size_of_runAll_copy hrun, rfl⟩
  | roundTrip scratch magic repeats =>
    obtain ⟨data, data', hholds, hrun, rfl⟩ := onCells_eq_ok_imp h
    exact ⟨scratch, data, data', hholds, (roundTripGroups_go_eq_ok_imp hrun).1, rfl⟩

theorem runLanes_ne_refused {e e' : Emulator α} {kernel : Kernel α} {g : Geometry} {lanes : ℕ}
    {error : Error} : runLanes kernel g lanes e ≠ .error (.refused error) e' := by
  cases kernel with
  | update args a b =>
    simp only [runLanes]
    split_ifs
    · nofun
    · exact onCells_ne_refused
  | copy target source len =>
    simp only [runLanes]
    split_ifs
    · nofun
    · exact onCells_ne_refused
  | roundTrip scratch magic repeats => exact onCells_ne_refused

/-- A launch that ends passed the check, ran its lanes and counted them. -/
theorem launch_eq_ok_imp {e e' : Emulator α} {kernel : Kernel α} {g : Geometry} {limit : ℕ}
    (h : launch limit kernel g e = .ok () e') :
    g.check limit = .ok () ∧ ∃ active e₁, runLanes kernel g g.lanes e = .ok active e₁ ∧
      active ≤ g.lanes ∧
      e' = { e₁ with stats := e₁.stats.plus 1 active (g.lanes - active) } := by
  rw [launch] at h
  obtain ⟨_, hcheck, h⟩ := device_bind_error_eq_ok.mp h
  obtain ⟨lanes, hlanes, h⟩ := device_bind_fault_eq_ok.mp h
  cases (Geometry.totalLanes_of_check hcheck).symm.trans hlanes
  obtain ⟨active, e₁, hrun, h⟩ := bind_eq_ok.mp h
  obtain ⟨idle, hidle, h⟩ := device_bind_fault_eq_ok.mp h
  obtain ⟨hle, rfl⟩ := Word.sub_eq_ok_iff.mp hidle
  obtain ⟨_, _, hget, h⟩ := bind_eq_ok.mp h
  cases hget
  obtain ⟨stats, hstats, h⟩ := device_bind_fault_eq_ok.mp h
  cases LaunchStats.record_eq_ok_imp hstats
  cases h
  exact ⟨hcheck, active, _, hrun, hle, rfl⟩

theorem launch_eq_refused_imp {e e' : Emulator α} {kernel : Kernel α} {g : Geometry} {limit : ℕ}
    {error : Error} (h : launch limit kernel g e = .error (.refused error) e') :
    g.check limit = .error error ∧ e' = e := by
  rw [launch] at h
  rcases device_bind_error_eq_refused h with hcheck | ⟨_, _, h⟩
  · exact hcheck
  · exfalso
    obtain ⟨lanes, _, h⟩ := device_bind_fault_eq_refused h
    rcases bind_eq_error h with hrun | ⟨active, e₁, _, h⟩
    · exact runLanes_ne_refused hrun
    · obtain ⟨idle, _, h⟩ := device_bind_fault_eq_refused h
      obtain ⟨stats, _, h⟩ := device_bind_fault_eq_refused h
      exact nomatch h

end Emulator

namespace Problem.Computes

variable {α : Type} [Scalar α] {p : Problem α} {a b : Array α} {size count : ℕ}
  {addressing : Addressing} {bases : Bases} {e : Emulator α} {i j : ℕ} {g : Geometry}
  {limit block : ℕ}

theorem launch_eq_ok (h : p.Computes a size count) (hb : b.size = size)
    (hbases : p.bases addressing count = .ok bases) (hij : i ≠ j) (hA : e.Holds i a)
    (hB : e.Holds j b) (hcover : Geometry.cover count block = .ok g)
    (hcheck : g.check limit = .ok ())
    (hroom : e.stats.Room 1 count (g.lanes - count)) :
    Emulator.launch limit (.update ⟨p.update, bases, count⟩ i j) g e =
      .ok () (e.launched j (p.updated a count b) count (g.lanes - count)) := by
  have hlanes := Geometry.lanes_le_of_cover hcover
  exact Emulator.launch_eq_ok hcheck
    (Emulator.runLanes_update hij hA hB g (h.runAll_eq_ok hbases hlanes b hb)) hlanes hroom

theorem launch_eq_overflow (h : p.Computes a size count) (hb : b.size = size)
    (hbases : p.bases addressing count = .ok bases) (hij : i ≠ j) (hA : e.Holds i a)
    (hB : e.Holds j b) (hcover : Geometry.cover count block = .ok g)
    (hcheck : g.check limit = .ok ())
    (hroom : ¬ e.stats.Room 1 count (g.lanes - count)) :
    Emulator.launch limit (.update ⟨p.update, bases, count⟩ i j) g e =
      .error (.fault .overflow) (e.withCells j (p.updated a count b)) := by
  have hlanes := Geometry.lanes_le_of_cover hcover
  exact Emulator.launch_eq_overflow hcheck
    (Emulator.runLanes_update hij hA hB g (h.runAll_eq_ok hbases hlanes b hb)) hlanes hroom

end Problem.Computes

end BatchAxpby
