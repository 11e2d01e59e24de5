import BatchAxpby.Proofs.Launch

/-! # Launches near the end of the word range

Near the end of the word range the smallest covering grid can have more lanes than a word counts,
although the grid and the block are words. The check refuses exactly these geometries. Whatever
the geometry, a launch overflows only in a lane that cannot address its element, or when all its
lanes have ended and the counters are full.
-/

namespace BatchAxpby

namespace Word

theorem ceilDiv_le_self (x : ℕ) {y : ℕ} (hy : 0 < y) : x ⌈/⌉ y ≤ x :=
  (ceilDiv_le_iff_le_mul hy).mpr (Nat.le_mul_of_pos_left x hy)

theorem divUp_eq_ok {x y : ℕ} (hx : x < bound) (hy : 0 < y) : divUp x y = .ok (x ⌈/⌉ y) := by
  have hself := ceilDiv_le_self x hy
  have hdiv := Nat.div_add_mod x y
  unfold divUp
  split_ifs with hmod
  · have hle : x ⌈/⌉ y ≤ x / y := (ceilDiv_le_iff_le_mul hy).mpr (by omega)
    exact congrArg Except.ok (floorDiv_le_ceilDiv.antisymm hle)
  · have hle : x ⌈/⌉ y ≤ x / y + 1 :=
      (ceilDiv_le_iff_le_mul hy).mpr (Nat.lt_mul_div_succ x hy).le
    have hlt : ¬ x ⌈/⌉ y ≤ x / y := by
      rw [ceilDiv_le_iff_le_mul hy]
      omega
    exact add_eq_ok_iff.mpr ⟨by omega, by omega⟩

end Word

namespace Geometry

variable {g : Geometry} {lanes block limit : ℕ}

/-- The geometry that covers `lanes` lanes is found without leaving the word range. It has the
fewest groups of `block` lanes that hold them, but at least one. -/
structure LeastCover (lanes block : ℕ) (g : Geometry) : Prop where
  cover_eq : cover lanes block = .ok g
  divUp_eq : ∃ groups, Word.divUp lanes block = .ok groups ∧ g = ⟨max groups 1, block⟩
  grid_lt : g.grid < Word.bound
  isLeast : IsLeast {grid | 1 ≤ grid ∧ lanes ≤ grid * block} g.grid

theorem exists_leastCover (hlanes : lanes < Word.bound) (hblock : 0 < block) :
    ∃ g, LeastCover lanes block g := by
  have hcover := cover_eq_ok lanes hblock
  have hgroups := (Word.ceilDiv_le_self lanes hblock).trans_lt hlanes
  exact ⟨_, hcover, ⟨_, Word.divUp_eq_ok hlanes hblock, rfl⟩, max_lt hgroups (by decide),
    (isLeast_of_cover hcover).2⟩

namespace LeastCover

variable (h : LeastCover lanes block g)

include h

theorem block_eq : g.block = block := by
  obtain ⟨groups, -, rfl⟩ := h.divUp_eq
  rfl

theorem check_eq_ok_iff (hblock : 0 < block) :
    g.check limit = .ok () ↔ block ≤ limit ∧ g.lanes < Word.bound := by
  rw [Geometry.check_eq_ok_iff, h.block_eq]
  exact ⟨fun ⟨_, _, hlimit⟩ => hlimit, fun hlimit => ⟨h.isLeast.1.1, hblock, hlimit⟩⟩

theorem totalLanes_of_check (hcheck : g.check limit = .ok ()) :
    ∃ total, g.totalLanes = .ok total ∧ lanes ≤ total ∧ total < max lanes 1 + block := by
  have hlt := lanes_lt_of_cover h.cover_eq
  rw [h.block_eq] at hlt
  exact ⟨_, Geometry.totalLanes_of_check hcheck, lanes_le_of_cover h.cover_eq, hlt⟩

end LeastCover

end Geometry

namespace Lane

variable {σ : Type} {body : ℕ → EStateM Fault σ Bool} {fault : Fault} {s t : σ}

theorem runAll_go_eq_error {remaining lane active : ℕ} :
    runAll.go body remaining lane active s = .error fault t ↔ ∃ k < remaining, ∃ total u,
      runAll.go body k lane active s = .ok total u ∧ body (lane + k) u = .error fault t := by
  induction remaining generalizing lane active s with
  | zero => simp [runAll.go]
  | succ remaining ih =>
    -- The first lane stops, or it ends and one of the others stops.
    rw [runAll.go]
    constructor
    · intro h
      cases hbody : body lane s with
      | error e u =>
        simp only [hbody] at h
        cases h
        exact ⟨0, remaining.succ_pos, active, s, rfl, hbody⟩
      | ok ran u =>
        simp only [hbody] at h
        obtain ⟨k, hk, total, v, hrun, hstop⟩ := ih.mp h
        refine ⟨k + 1, Nat.succ_lt_succ hk, total, v, ?_, ?_⟩
        · simpa only [runAll.go, hbody] using hrun
        · rwa [Nat.add_right_comm, Nat.add_assoc] at hstop
    · rintro ⟨k, hk, total, v, hrun, hstop⟩
      cases k with
      | zero =>
        cases hrun
        rw [show body lane s = .error fault t from hstop]
      | succ k =>
        rw [runAll.go] at hrun
        cases hbody : body lane s with
        | error e u => simp [hbody] at hrun
        | ok ran u =>
          simp only [hbody] at hrun ⊢
          refine ih.mpr ⟨k, Nat.lt_of_succ_lt_succ hk, total, v, hrun, ?_⟩
          rwa [Nat.add_right_comm, Nat.add_assoc]

/-- Lanes stop at the first one that does, after all those before it have ended. -/
theorem runAll_eq_error {lanes : ℕ} : runAll body lanes s = .error fault t ↔
    ∃ lane < lanes, ∃ active u, runAll body lane s = .ok active u ∧
      body lane u = .error fault t := by
  simp only [runAll, runAll_go_eq_error, Nat.zero_add]

variable {α : Type}

theorem copy_ne_overflow {source target target' : Array α} {len lane : ℕ} :
    copy source len lane target ≠ .error .overflow target' := by
  intro h
  unfold copy at h
  by_cases hlane : len ≤ lane
  · simp [hlane] at h
  · cases hsource : source[lane]? with
    | none => simp [hlane, hsource] at h
    | some x =>
      simp only [if_neg hlane, hsource] at h
      split_ifs at h
      cases h

variable [Scalar α]

theorem roundTrip_ne_error {magic : α} {repeats base lane : ℕ} {g g' : Group α} :
    roundTrip magic repeats base lane g ≠ .error fault g' := by
  unfold roundTrip
  split_ifs <;> simp

theorem lt_count_of_update_eq_error {args : UpdateArgs α} {a b b' : Array α} {lane : ℕ}
    (h : update args a lane b = .error fault b') : lane < args.count := by
  by_contra hlane
  rw [UpdateArgs.lane_eq_idle hlane] at h
  exact nomatch h

end Lane

namespace Emulator

variable {α : Type}

theorem onCells_eq_overflow_iff {β : Type} {e e' : Emulator α} {i : ℕ}
    {work : EStateM Fault (Array α) β} : onCells i work e = .error (.fault .overflow) e' ↔
      ∃ data data', e.Holds i data ∧ work data = .error .overflow data' ∧
        e' = e.withCells i data' := by
  constructor
  · intro h
    cases hb : e.buffers[i]? with
    | none => simp [onCells, hb] at h
    | some b =>
      have hholds : e.Holds i b.cells := ⟨b.live, hb⟩
      rw [onCells_of_holds hholds] at h
      cases hw : work b.cells with
      | ok x data' => simp [hw] at h
      | error fault data' =>
        simp only [hw] at h
        cases h
        exact ⟨b.cells, data', hholds, hw, rfl⟩
  · rintro ⟨data, data', hholds, hw, rfl⟩
    rw [onCells_of_holds hholds, hw]

variable [Scalar α] {e e' : Emulator α} {kernel : Kernel α} {g : Geometry} {limit : ℕ}

/-- A lane of an update overflows while it addresses its element, after the lanes before it have
ended, and `e'` is the device it leaves. The lanes of other kernels do not address elements. -/
def LaneOverflows (kernel : Kernel α) (lanes : ℕ) (e e' : Emulator α) : Prop :=
  match kernel with
  | .update args a b => a ≠ b ∧ ∃ data lane cells cells', e.Holds b data ∧ lane < lanes ∧
      lane < args.count ∧ Lane.runAll (Lane.update args (e.cells a)) lane data = .ok lane cells ∧
      Lane.update args (e.cells a) lane cells = .error .overflow cells' ∧ e' = e.withCells b cells'
  | .copy .. => False
  | .roundTrip .. => False

/-- All lanes end and leave `e'`, but the counters have no room for them. -/
def CountersOverflow (kernel : Kernel α) (g : Geometry) (e e' : Emulator α) : Prop :=
  ∃ active, runLanes kernel g g.lanes e = .ok active e' ∧
    ¬ e.stats.Room 1 active (g.lanes - active)

/-- The words that a launch computes from its geometry are in range: the number of lanes, the
first lane of each group, and the number of idle lanes. -/
structure GeometryInRange (kernel : Kernel α) (g : Geometry) (e : Emulator α) : Prop where
  totalLanes_eq : g.totalLanes = .ok g.lanes
  base_eq : ∀ group < g.grid, Word.mul group g.block = .ok (group * g.block)
  idle_eq : ∀ active e', runLanes kernel g g.lanes e = .ok active e' →
    Word.sub g.lanes active = .ok (g.lanes - active)

theorem roundTripGroups_go_ne_overflow {magic : α} {repeats : ℕ}
    (hlt : g.lanes < Word.bound) {remaining group active : ℕ}
    (hgroups : group + remaining ≤ g.grid) {s t : Array α} :
    roundTripGroups.go magic repeats g remaining group active s ≠ .error .overflow t := by
  induction remaining generalizing group active s with
  | zero => simp [roundTripGroups.go]
  | succ remaining ih =>
    -- The first lane of a group is one of the lanes, and these can be counted.
    have hbase : group * g.block < Word.bound :=
      (Nat.mul_le_mul_right g.block (by omega)).trans_lt hlt
    have hnext : group + 1 + remaining ≤ g.grid := by omega
    rw [roundTripGroups.go, Word.mul_eq_ok_iff.mpr ⟨hbase, rfl⟩]
    simp only
    split_ifs
    · exact ih hnext
    · simp
    · cases hrun : Lane.runAll (Lane.roundTrip magic repeats (group * g.block)) g.block
          ⟨Array.replicate g.block Scalar.zero, s⟩ with
      | ok ran after => exact ih hnext
      | error fault after =>
        obtain ⟨_, _, _, _, _, hstop⟩ := Lane.runAll_eq_error.mp hrun
        exact absurd hstop Lane.roundTrip_ne_error

theorem runLanes_update_eq_overflow_iff {args : UpdateArgs α} {a b lanes : ℕ} :
    runLanes (.update args a b) g lanes e = .error (.fault .overflow) e' ↔
      LaneOverflows (.update args a b) lanes e e' := by
  simp only [runLanes, LaneOverflows]
  by_cases hab : a = b
  · simp [hab]
  rw [if_neg hab, onCells_eq_overflow_iff]
  constructor
  · rintro ⟨data, data', hholds, hrun, rfl⟩
    obtain ⟨lane, hlane, active, cells, hbefore, hstop⟩ := Lane.runAll_eq_error.mp hrun
    have hcount := Lane.lt_count_of_update_eq_error hstop
    -- The lanes before the one that stops all have an element, so all of them were active.
    obtain rfl : active = lane := (Lane.runAll_update hbefore).1.trans (min_eq_left hcount.le)
    exact ⟨hab, data, _, cells, data', hholds, hlane, hcount, hbefore, hstop, rfl⟩
  · rintro ⟨-, data, lane, cells, cells', hholds, hlane, -, hbefore, hstop, rfl⟩
    exact ⟨data, cells', hholds, Lane.runAll_eq_error.mpr ⟨lane, hlane, _, cells, hbefore, hstop⟩,
      rfl⟩

/-- Lanes of a launch whose lanes can be counted overflow only where they address an element. -/
theorem runLanes_eq_overflow_iff (hlt : g.lanes < Word.bound) {lanes : ℕ} :
    runLanes kernel g lanes e = .error (.fault .overflow) e' ↔
      LaneOverflows kernel lanes e e' := by
  cases kernel with
  | update args a b => exact runLanes_update_eq_overflow_iff
  | copy target source len =>
    simp only [runLanes, LaneOverflows, iff_false]
    split_ifs
    · simp
    · rw [onCells_eq_overflow_iff]
      rintro ⟨_, _, _, hrun, _⟩
      obtain ⟨_, _, _, _, _, hstop⟩ := Lane.runAll_eq_error.mp hrun
      exact Lane.copy_ne_overflow hstop
  | roundTrip scratch magic repeats =>
    simp only [runLanes, LaneOverflows, iff_false, onCells_eq_overflow_iff]
    rintro ⟨_, _, _, hrun, _⟩
    exact roundTripGroups_go_ne_overflow hlt (Nat.zero_add g.grid).le hrun

theorem active_le_of_runLanes {active : ℕ}
    (h : runLanes kernel g g.lanes e = .ok active e') : active ≤ g.lanes := by
  cases kernel with
  | update args a b =>
    rw [(runLanes_update_imp h).1]
    exact min_le_left ..
  | copy target source len =>
    simp only [runLanes] at h
    split_ifs at h
    obtain ⟨_, _, _, hrun, _⟩ := onCells_eq_ok_imp h
    exact Lane.runAll_le hrun
  | roundTrip scratch magic repeats =>
    obtain ⟨_, _, _, hrun, _⟩ := onCells_eq_ok_imp h
    exact (roundTripGroups_go_eq_ok_imp hrun).2.trans_eq (Nat.zero_add _)

theorem geometryInRange_of_check (hcheck : g.check limit = .ok ()) (kernel : Kernel α)
    (e : Emulator α) : GeometryInRange kernel g e where
  totalLanes_eq := Geometry.totalLanes_of_check hcheck
  base_eq group hgroup := by
    have hle := Nat.mul_le_mul_right g.block hgroup.le
    exact Word.mul_eq_ok_iff.mpr ⟨hle.trans_lt (Geometry.lanes_lt_of_check hcheck), rfl⟩
  idle_eq active e' hrun := Word.sub_eq_ok_iff.mpr ⟨active_le_of_runLanes hrun, rfl⟩

theorem launch_eq_overflow_iff_of_check (hcheck : g.check limit = .ok ()) :
    launch limit kernel g e = .error (.fault .overflow) e' ↔
      LaneOverflows kernel g.lanes e e' ∨ CountersOverflow kernel g e e' := by
  have hlt := Geometry.lanes_lt_of_check hcheck
  rw [← runLanes_eq_overflow_iff hlt, CountersOverflow]
  cases hrun : runLanes kernel g g.lanes e with
  | error stop e₁ =>
    have hlaunch : launch limit kernel g e = .error stop e₁ := by
      rw [launch, device_bind_of_error_ok hcheck,
        device_bind_of_fault_ok (Geometry.totalLanes_of_check hcheck), bind_of_error hrun]
    simp [hlaunch]
  | ok active e₁ =>
    have hactive := active_le_of_runLanes hrun
    obtain ⟨j, data, data', -, -, rfl⟩ := runLanes_eq_ok_imp hrun
    by_cases hroom : e.stats.Room 1 active (g.lanes - active)
    · simp [launch_eq_ok hcheck hrun hactive hroom, hroom]
    · simp [launch_eq_overflow hcheck hrun hactive hroom, hroom]

theorem launch_eq_overflow_iff : launch limit kernel g e = .error (.fault .overflow) e' ↔
    g.check limit = .ok () ∧
      (LaneOverflows kernel g.lanes e e' ∨ CountersOverflow kernel g e e') := by
  rcases g.check_cases limit with ⟨reason, hcheck⟩ | hcheck
  · simp [launch_eq_refused hcheck, hcheck]
  · rw [launch_eq_overflow_iff_of_check hcheck]
    simp [hcheck]

/-- The smallest geometry that covers a number of lanes is found without overflow. It passes the
check exactly if its groups are not too wide and its lanes can be counted, and then it has a lane
for each element and less than one group more. Any geometry at all is refused before its lanes are
counted, or no word that a launch computes from it overflows. A launch that overflows therefore
does so in a lane that addresses its element, or in the counters. -/
theorem geometry_never_overflows_launch (limit : ℕ) :
    (∀ lanes block, lanes < Word.bound → 0 < block → ∃ g, Geometry.LeastCover lanes block g ∧
      (g.check limit = .ok () ↔ block ≤ limit ∧ g.lanes < Word.bound) ∧
      (g.check limit = .ok () →
        ∃ total, g.totalLanes = .ok total ∧ lanes ≤ total ∧ total < max lanes 1 + block)) ∧
    ∀ (kernel : Kernel α) (g : Geometry) (e : Emulator α),
      ((∃ reason, g.check limit = .error (.launch reason) ∧
          launch limit kernel g e = .error (.refused (.launch reason)) e) ∨
        g.check limit = .ok () ∧ GeometryInRange kernel g e) ∧
      ∀ e', launch limit kernel g e = .error (.fault .overflow) e' ↔ g.check limit = .ok () ∧
        (LaneOverflows kernel g.lanes e e' ∨ CountersOverflow kernel g e e') := by
  constructor
  · intro lanes block hlanes hblock
    obtain ⟨g, hcover⟩ := Geometry.exists_leastCover hlanes hblock
    exact ⟨g, hcover, hcover.check_eq_ok_iff hblock, hcover.totalLanes_of_check⟩
  · intro kernel g e
    refine ⟨?_, fun e' => launch_eq_overflow_iff⟩
    rcases g.check_cases limit with ⟨reason, hcheck⟩ | hcheck
    · exact Or.inl ⟨reason, hcheck, launch_eq_refused hcheck e⟩
    · exact Or.inr ⟨hcheck, geometryInRange_of_check hcheck kernel e⟩

def nearlyFull : Emulator Float32 :=
  ⟨⟨12, 12⟩, #[{ cells := #[5, 6, 7] }], ⟨4, 18446744073709551613, 3⟩⟩

/-- For the last word as the number of lanes, groups of two need one lane more than a word counts
and are refused, and groups of three fit exactly. A launch on three cells that passes the check
still overflows in the counters. -/
theorem lastWord_geometry_in_range :
    (Geometry.LeastCover 18446744073709551615 2 ⟨9223372036854775808, 2⟩ ∧
      ∃ reason, launch 1024 (.roundTrip 0 1.5 2) ⟨9223372036854775808, 2⟩ nearlyFull =
        .error (.refused (.launch reason)) nearlyFull) ∧
    (Geometry.LeastCover 18446744073709551615 3 ⟨6148914691236517205, 3⟩ ∧
      Geometry.check ⟨6148914691236517205, 3⟩ 1024 = .ok () ∧
      ∃ total, Geometry.totalLanes ⟨6148914691236517205, 3⟩ = .ok total ∧
        18446744073709551615 ≤ total ∧ total < 18446744073709551618) ∧
    ∃ e', launch 1024 (.roundTrip 0 1.5 2) ⟨2, 2⟩ nearlyFull = .error (.fault .overflow) e' := by
  obtain ⟨hcovers, hlaunches⟩ := geometry_never_overflows_launch (α := Float32) 1024
  refine ⟨?_, ?_, ?_⟩
  · obtain ⟨g, hcover, hcheck, -⟩ := hcovers 18446744073709551615 2 (by decide) (by decide)
    cases hcover.cover_eq
    refine ⟨hcover, ?_⟩
    rcases (hlaunches (.roundTrip 0 1.5 2) ⟨9223372036854775808, 2⟩ nearlyFull).1 with
      ⟨reason, -, hlaunch⟩ | ⟨hok, -⟩
    · exact ⟨reason, hlaunch⟩
    · exact absurd (hcheck.mp hok) (by decide)
  · obtain ⟨g, hcover, hcheck, htotal⟩ := hcovers 18446744073709551615 3 (by decide) (by decide)
    cases hcover.cover_eq
    have hok := hcheck.mpr (by decide)
    exact ⟨hcover, hok, htotal hok⟩
  · have hfull : ¬ nearlyFull.stats.Room 1 3 1 := fun h => absurd h.2.1 (by decide)
    have hcheck : Geometry.check ⟨2, 2⟩ 1024 = .ok () := by decide
    exact ⟨_, ((hlaunches (.roundTrip 0 1.5 2) ⟨2, 2⟩ nearlyFull).2 _).mpr
      ⟨hcheck, Or.inr ⟨3, rfl, hfull⟩⟩⟩

end Emulator

end BatchAxpby
