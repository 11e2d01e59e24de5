import BatchAxpby.Device.Session
import BatchAxpby.Proofs.Holdings

/-! # Device sessions

After any commands the ledger holds exactly the bytes of the buffers that the session holds, and
the counters count exactly the launches since the last reset. A buffer never changes its size. A
command that is refused changes no handle and leaves the device as it was.
-/

namespace BatchAxpby

namespace Command

variable {α : Type}

def isBenchmark : Command α → Bool
  | .accumulate .. | .copy .. | .roundTrip .. => true
  | _ => false

/-- The launches since the last reset, newest first, after a command that ended. -/
def tally (c : Command α) (earlier : List Geometry) : List Geometry :=
  match c with
  | .launch _ g => g :: earlier
  | .launchCover _ lanes block =>
    match Geometry.cover lanes block with
    | .ok g => g :: earlier
    | .error _ => earlier
  | .resetStats => []
  | _ => earlier

end Command

namespace Session

variable {α : Type} {s s' : Session α}

def held (s : Session α) : List ℕ :=
  s.buffers.toList.flatMap Option.toList ++
    s.batches.toList.flatMap fun batch => batch.toList.flatMap fun x => [x.a, x.b]

theorem flatMap_set_none {β : Type} (f : Option β → List ℕ) (hf : f none = []) {l : List (Option β)}
    {i : ℕ} {x : Option β} (h : l[i]? = some x) :
    (l.flatMap f).Perm (f x ++ (l.set i none).flatMap f) := by
  induction l generalizing i with
  | nil => exact nomatch h
  | cons y l ih =>
    cases i with
    | zero =>
      cases h
      simp [hf]
    | succ i =>
      rw [List.set_cons_succ, List.flatMap_cons, List.flatMap_cons]
      exact ((ih h).append_left (f y)).trans (List.perm_append_comm_assoc ..)

theorem held_addBuffer (i : ℕ) : (s.addBuffer i).2.held.Perm (i :: s.held) := by
  simp only [addBuffer, held, Array.toList_push, List.flatMap_append]
  simp

theorem held_addBatch (x : DeviceBatch) : (s.addBatch x).2.held.Perm (x.b :: x.a :: s.held) := by
  simp only [addBatch, held, Array.toList_push, List.flatMap_append, List.flatMap_singleton,
    Option.toList_some, ← List.append_assoc]
  exact List.perm_append_comm.trans (List.Perm.swap ..)

theorem held_perm_of_buffer {handle i : ℕ} (h : s.buffer? handle = some i) :
    s.held.Perm (i :: { s with buffers := s.buffers.setIfInBounds handle none }.held) := by
  have hget : s.buffers.toList[handle]? = some (some i) := by
    rw [Array.getElem?_toList]
    exact Option.join_eq_some_iff.mp h
  have hperm := flatMap_set_none Option.toList rfl hget
  rw [← Array.toList_setIfInBounds] at hperm
  exact hperm.append_right _

theorem held_perm_of_batch {handle : ℕ} {x : DeviceBatch} (h : s.batch? handle = some x) :
    s.held.Perm
      (x.a :: x.b :: { s with batches := s.batches.setIfInBounds handle none }.held) := by
  have hget : s.batches.toList[handle]? = some (some x) := by
    rw [Array.getElem?_toList]
    exact Option.join_eq_some_iff.mp h
  have hperm := flatMap_set_none (fun batch => batch.toList.flatMap fun x => [x.a, x.b]) rfl hget
  rw [← Array.toList_setIfInBounds] at hperm
  exact (hperm.append_left _).trans (List.perm_append_comm_assoc ..)

variable [Scalar α]

/-- What a command to the device can do. -/
inductive Effect (s : Session α) (c : Command α) : Outcome (Reply α) → Session α → Prop
  /-- The command is refused. -/
  | refused {error : Error} {e : Emulator α} (h : s.device.Restores e) :
      Effect s c (.error (.refused error)) { s with device := e }
  /-- Cells are written or read, or a kernel is bound. -/
  | keeps {reply : Reply α} {e : Emulator α} (kernels : Array (Kernel α)) (h : s.device.Keeps e)
      (hstats : e.stats = s.device.stats) (hc : ∀ earlier, c.tally earlier = earlier) :
      Effect s c (.ok reply) { s with device := e, kernels }
  | launches {reply : Reply α} {e : Emulator α} {g : Geometry} {active idle : ℕ}
      (h : s.device.Keeps e) (hstats : e.stats = s.device.stats.plus 1 active idle)
      (hlanes : active + idle = g.lanes) (hc : ∀ earlier, c.tally earlier = g :: earlier) :
      Effect s c (.ok reply) { s with device := e }
  | resets {reply : Reply α} (hc : ∀ earlier, c.tally earlier = []) :
      Effect s c (.ok reply) { s with device := s.device.resetStats }
  | allocates {reply : Reply α} (cells : Array α)
      (hfits : cells.size * Scalar.width α ≤ s.device.ledger.free)
      (hc : ∀ earlier, c.tally earlier = earlier) :
      Effect s c (.ok reply)
        (addBuffer s.device.buffers.size { s with device := s.device.withBuffer cells }).2
  | allocatesBatch {reply : Reply α} {sizeA sizeB : ℕ} (a b : Array α)
      (hfits : (a.size + b.size) * Scalar.width α ≤ s.device.ledger.free)
      (hc : ∀ earlier, c.tally earlier = earlier) :
      Effect s c (.ok reply)
        (addBatch ⟨s.device.buffers.size, s.device.buffers.size + 1, sizeA, sizeB⟩
          { s with device := s.device.withBatch a b }).2
  | frees {reply : Reply α} {handle i : ℕ} (h : s.buffer? handle = some i)
      (hc : ∀ earlier, c.tally earlier = earlier) :
      Effect s c (.ok reply)
        { s with
          device := s.device.free i
          buffers := s.buffers.setIfInBounds handle none }
  | freesBatch {reply : Reply α} {handle : ℕ} {x : DeviceBatch} (h : s.batch? handle = some x)
      (hc : ∀ earlier, c.tally earlier = earlier) :
      Effect s c (.ok reply)
        { s with
          device := (s.device.free x.a).free x.b
          batches := s.batches.setIfInBounds handle none }

variable {c : Command α} {outcome : Outcome (Reply α)} {host : Host} {spec : EmulatorSpec}

section Work

variable {β : Type} {x : DeviceM (Emulator α) β} {next : β → Session α → Reply α × Session α}
  (h : s.work x next = (outcome, s'))

include h

theorem effect_of_work_ok {v : β} {e : Emulator α} (hx : x s.device = .ok v e)
    (heffect : Effect s c (.ok (next v { s with device := e }).1)
      (next v { s with device := e }).2) : Effect s c outcome s' := by
  rw [work, hx] at h
  cases h
  exact heffect

variable (hfault : ∀ fault, outcome ≠ .error (.fault fault))

include hfault

theorem effect_of_work_error {stop : Stop} {e : Emulator α} (hx : x s.device = .error stop e)
    (hrestores : s.device.Restores e) : Effect s c outcome s' := by
  rw [work, hx] at h
  cases h
  cases stop with
  | refused error => exact .refused hrestores
  | fault fault => exact absurd rfl (hfault fault)

/-- Work on the device that does not fault ends or is refused. -/
theorem effect_of_work
    (hok : ∀ v e, x s.device = .ok v e →
      Effect s c (.ok (next v { s with device := e }).1) (next v { s with device := e }).2)
    (hrefused : ∀ error e, x s.device = .error (.refused error) e → s.device.Restores e) :
    Effect s c outcome s' := by
  cases hx : x s.device with
  | ok v e => exact effect_of_work_ok h hx (hok v e hx)
  | error stop e =>
    cases stop with
    | refused error => exact effect_of_work_error h hfault hx (hrefused error e hx)
    | fault fault =>
      rw [work, hx] at h
      cases h
      exact absurd rfl (hfault fault)

end Work

theorem effect_of_launch {limit : ℕ} {kernel : Kernel α} {g : Geometry} {make : Unit → Reply α}
    (hc : ∀ earlier, c.tally earlier = g :: earlier)
    (h : s.work (Emulator.launch limit kernel g) (reply make) = (outcome, s'))
    (hfault : ∀ fault, outcome ≠ .error (.fault fault)) : Effect s c outcome s' := by
  refine effect_of_work h hfault (fun v e hx => ?_) (fun error e hx => ?_)
  · obtain ⟨hkeeps, active, idle, hstats, hlanes⟩ := Emulator.launch_keeps hx
    exact .launches hkeeps hstats hlanes hc
  · obtain ⟨-, rfl⟩ := Emulator.launch_eq_refused_imp hx
    exact .refl _

theorem effect_of_bind {kernel : Kernel α} (hc : ∀ earlier, c.tally earlier = earlier)
    (h : step?.bind host spec s kernel = some (outcome, s')) : Effect s c outcome s' := by
  cases h
  exact .keeps _ (.refl _) rfl hc

theorem step_effect (hc : c.isBenchmark = false) (h : s.step? host spec c = some (outcome, s'))
    (hfault : ∀ fault, outcome ≠ .error (.fault fault)) : Effect s c outcome s' := by
  cases c with
  | allocate len =>
    have hwork := Option.some.inj h
    rcases Emulator.allocate_cases host len s.device with ⟨hnew, hfits⟩ | ⟨stop, hnew, -⟩
    · refine effect_of_work_ok hwork hnew (.allocates _ ?_ fun _ => rfl)
      rwa [Array.size_replicate]
    · exact effect_of_work_error hwork hfault hnew (.refl _)
  | free handle =>
    obtain ⟨i, hi, h⟩ := Option.bind_eq_some_iff.mp h
    cases h
    exact .frees hi fun _ => rfl
  | length handle =>
    obtain ⟨i, hi, h⟩ := Option.bind_eq_some_iff.mp h
    cases h
    exact .keeps s.kernels (.refl _) rfl fun _ => rfl
  | write handle data =>
    obtain ⟨i, hi, h⟩ := Option.bind_eq_some_iff.mp h
    refine effect_of_work (Option.some.inj h) hfault (fun v e hx => ?_) (fun error e hx => ?_)
    · obtain ⟨hkeeps, hstats⟩ := Emulator.upload_keeps hx
      exact .keeps s.kernels hkeeps hstats fun _ => rfl
    · cases Emulator.eq_of_upload_refused hx
      exact .refl _
  | read handle len =>
    obtain ⟨i, -, h⟩ := Option.bind_eq_some_iff.mp h
    have hwork := Option.some.inj h
    rcases Emulator.download_cases i len s.device with ⟨data, hread⟩ | ⟨error, hread⟩
    · exact effect_of_work_ok hwork hread (.keeps s.kernels (.refl _) rfl fun _ => rfl)
    · exact effect_of_work_error hwork hfault hread (.refl _)
  | allocateBatch m n =>
    have hwork := Option.some.inj h
    rcases Emulator.allocateBatch_cases host spec m n s.device with
      ⟨hnew, hfits⟩ | ⟨stop, e, hnew, hrestores, -⟩
    · refine effect_of_work_ok hwork hnew (.allocatesBatch _ _ ?_ fun _ => rfl)
      rwa [Array.size_replicate, Array.size_replicate]
    · exact effect_of_work_error hwork hfault hnew hrestores
  | uploadBatch a b =>
    have hwork := Option.some.inj h
    rcases Emulator.uploadBatch_cases host spec a b s.device with
      ⟨hnew, hfits⟩ | ⟨stop, e, hnew, hrestores, -⟩
    · exact effect_of_work_ok hwork hnew (.allocatesBatch a b hfits fun _ => rfl)
    · exact effect_of_work_error hwork hfault hnew hrestores
  | freeBatch handle =>
    obtain ⟨x, hx, h⟩ := Option.bind_eq_some_iff.mp h
    cases h
    exact .freesBatch hx fun _ => rfl
  | downloadBatch handle len =>
    obtain ⟨x, -, h⟩ := Option.bind_eq_some_iff.mp h
    have hwork := Option.some.inj h
    rcases Emulator.downloadBatch_cases host spec x len s.device with
      ⟨data, hread⟩ | ⟨error, hread⟩
    · exact effect_of_work_ok hwork hread (.keeps s.kernels (.refl _) rfl fun _ => rfl)
    · exact effect_of_work_error hwork hfault hread (.refl _)
  | describeBatch handle =>
    obtain ⟨x, -, h⟩ := Option.bind_eq_some_iff.mp h
    cases hbytes : x.bytes (Scalar.width α) with
    | ok bytes =>
      simp only [hbytes] at h
      cases h
      exact .keeps s.kernels (.refl _) rfl fun _ => rfl
    | error fault =>
      simp only [hbytes] at h
      cases h
      exact absurd rfl (hfault fault)
  | bindUpdate args a b =>
    obtain ⟨a, ha, h⟩ := Option.bind_eq_some_iff.mp h
    obtain ⟨b, hb, h⟩ := Option.bind_eq_some_iff.mp h
    exact effect_of_bind (fun _ => rfl) h
  | bindBatch args handle =>
    obtain ⟨x, hx, h⟩ := Option.bind_eq_some_iff.mp h
    exact effect_of_bind (fun _ => rfl) h
  | bindCopy target source len =>
    obtain ⟨target, ht, h⟩ := Option.bind_eq_some_iff.mp h
    obtain ⟨source, hs, h⟩ := Option.bind_eq_some_iff.mp h
    exact effect_of_bind (fun _ => rfl) h
  | bindRoundTrip scratch magic repeats =>
    obtain ⟨scratch, hs, h⟩ := Option.bind_eq_some_iff.mp h
    exact effect_of_bind (fun _ => rfl) h
  | launch handle g =>
    obtain ⟨kernel, hk, h⟩ := Option.bind_eq_some_iff.mp h
    exact effect_of_launch (fun _ => rfl) (Option.some.inj h) hfault
  | launchCover handle lanes block =>
    obtain ⟨kernel, -, h⟩ := Option.bind_eq_some_iff.mp h
    have hwork := Option.some.inj h
    rcases Geometry.cover_cases lanes block with hcover | ⟨g, hcover⟩
    · rw [hcover] at hwork
      exact effect_of_work_error hwork hfault rfl (.refl _)
    · rw [hcover] at hwork
      exact effect_of_launch (fun earlier => by rw [Command.tally, hcover]) hwork hfault
  | synchronize =>
    cases h
    exact .keeps s.kernels (.refl _) rfl fun _ => rfl
  | resetStats =>
    cases h
    exact .resets fun _ => rfl
  | accumulate problem settings elapsed => exact nomatch hc
  | copy settings elapsed => exact nomatch hc
  | roundTrip repeats elapsed => exact nomatch hc

structure Event (α : Type) where
  command : Command α
  outcome : Outcome (Reply α)

def launched : List (Event α) → List Geometry
  | [] => []
  | ⟨c, .ok _⟩ :: earlier => c.tally (launched earlier)
  | ⟨_, .error _⟩ :: earlier => launched earlier

/-- Commands to the device of which none faults, newest first. -/
inductive Run (host : Host) (spec : EmulatorSpec) (s : Session α) :
    List (Event α) → Session α → Prop
  | nil : Run host spec s [] s
  | step {events : List (Event α)} {s₁ s₂ : Session α} {c : Command α}
      {outcome : Outcome (Reply α)} (h : Run host spec s events s₁) (hc : c.isBenchmark = false)
      (hstep : s₁.step? host spec c = some (outcome, s₂))
      (hfault : ∀ fault, outcome ≠ .error (.fault fault)) :
      Run host spec s (⟨c, outcome⟩ :: events) s₂

theorem Effect.accounts {capacity : ℕ} (h : Effect s c outcome s')
    (hs : s.device.Accounts capacity s.held) : s'.device.Accounts capacity s'.held := by
  cases h with
  | refused h => exact hs.keeps h.keeps
  | keeps _ h => exact hs.keeps h
  | launches h => exact hs.keeps h
  | resets => exact hs.keeps ⟨rfl, .refl _, fun _ => Iff.rfl⟩
  | allocates cells hfits => exact (hs.withBuffer cells hfits).perm (held_addBuffer _).symm
  | allocatesBatch a b hfits =>
    have hperm := held_addBatch (s := { s with device := s.device.withBatch a b })
    exact (hs.withBatch hfits).perm (hperm ⟨_, _, _, _⟩).symm
  | frees h => exact (hs.perm (held_perm_of_buffer h)).free
  | freesBatch h => exact (hs.perm (held_perm_of_batch h)).free.free

theorem Effect.keepsSizes (h : Effect s c outcome s') : s.device.KeepsSizes s'.device := by
  cases h with
  | refused h => exact h.keeps.keepsSizes
  | keeps _ h => exact h.keepsSizes
  | launches h => exact h.keepsSizes
  | resets => exact .refl _
  | allocates cells => exact s.device.keepsSizes_withBuffer cells
  | allocatesBatch a b => exact s.device.keepsSizes_withBatch a b
  | frees => exact s.device.keepsSizes_free _
  | freesBatch => exact (s.device.keepsSizes_free _).trans (Emulator.keepsSizes_free _ _)

/-- The counters count the launches and each of their lanes. -/
def Counts (stats : LaunchStats) (launches : List Geometry) : Prop :=
  stats.launches = launches.length ∧
    stats.active + stats.idle = (launches.map Geometry.lanes).sum

omit [Scalar α] in
theorem counts_of_same {events : List (Event α)} {reply : Reply α}
    (hstats : s'.device.stats = s.device.stats) (hc : ∀ earlier, c.tally earlier = earlier)
    (hs : Counts s.device.stats (launched events)) :
    Counts s'.device.stats (launched (⟨c, .ok reply⟩ :: events)) := by
  rw [launched, hc, hstats]
  exact hs

theorem Effect.counts {events : List (Event α)} (h : Effect s c outcome s')
    (hs : Counts s.device.stats (launched events)) :
    Counts s'.device.stats (launched (⟨c, outcome⟩ :: events)) := by
  cases h with
  | refused h =>
    obtain ⟨dead, -, rfl⟩ := h
    exact hs
  | keeps _ _ hstats hc => exact counts_of_same hstats hc hs
  | launches _ hstats hlanes hc =>
    obtain ⟨hnum, hsum⟩ := hs
    rw [launched, hc, Counts, hstats, List.length_cons, List.map_cons, List.sum_cons]
    simp only [LaunchStats.plus]
    omega
  | resets hc =>
    rw [launched, hc]
    exact ⟨rfl, rfl⟩
  | allocates _ _ hc => exact counts_of_same rfl hc hs
  | allocatesBatch _ _ _ hc => exact counts_of_same rfl hc hs
  | frees _ hc => exact counts_of_same (s.device.stats_free _) hc hs
  | freesBatch _ hc =>
    exact counts_of_same ((Emulator.stats_free _ _).trans (s.device.stats_free _)) hc hs

section Run

variable {events : List (Event α)}

theorem Run.accounts {capacity : ℕ} (h : Run host spec s events s')
    (hs : s.device.Accounts capacity s.held) : s'.device.Accounts capacity s'.held := by
  induction h with
  | nil => exact hs
  | step _ hc hstep hfault ih => exact (step_effect hc hstep hfault).accounts ih

theorem Run.keepsSizes (h : Run host spec s events s') : s.device.KeepsSizes s'.device := by
  induction h with
  | nil => exact .refl _
  | step _ hc hstep hfault ih => exact ih.trans (step_effect hc hstep hfault).keepsSizes

theorem Run.counts (h : Run host spec (start spec) events s) :
    Counts s.device.stats (launched events) := by
  induction h with
  | nil => exact ⟨rfl, rfl⟩
  | step _ hc hstep hfault ih => exact (step_effect hc hstep hfault).counts ih

theorem accounts_start :
    (start spec : Session α).device.Accounts spec.memory (start spec : Session α).held where
  nodup := List.nodup_nil
  live_iff i := by simp [start, held, Emulator.start]
  inUse_eq := rfl
  inUse_le := Nat.zero_le _
  capacity_eq := rfl

/-- After any commands that do not fault, the ledger has the bytes of the live buffers, which are
those held, and the counters have the launches since the last reset with all their lanes. No
further commands change the size of a held buffer. A refused command changes no handle and leaves
the device as it was. -/
theorem run_keeps_accounts (h : Run host spec (start spec) events s) :
    s.device.Accounts spec.memory s.held ∧
    Counts s.device.stats (launched events) ∧
    (∀ later s', Run host spec s later s' → ∀ i ∈ s.held,
      (s'.device.cells i).size = (s.device.cells i).size) ∧
    ∀ c error s', c.isBenchmark = false →
      s.step? host spec c = some (.error (.refused error), s') →
        ∃ e, s' = { s with device := e } ∧ s.device.Restores e := by
  have haccounts := h.accounts accounts_start
  refine ⟨haccounts, h.counts, fun later s' hlater i hi => ?_, fun c error s' hc hstep => ?_⟩
  · obtain ⟨b, hb⟩ := haccounts.exists_buffer hi
    exact hlater.keepsSizes.size_cells hb
  · cases step_effect hc hstep (fun _ => nofun) with
    | refused hrestores => exact ⟨_, rfl, hrestores⟩

end Run

def tenValues : EmulatorSpec := { memory := 40, maxGroup := 4 }

/-- Two buffers are filled by a copy that leaves two of four lanes idle. A batch whose second
buffer does not fit is then refused, and the first one is given back. -/
theorem tenValues_session_accounts : ∃ (events : List (Event Float32)) (s : Session Float32),
    Run Host.standard tenValues (start tenValues) events s ∧
      s.device.Accounts 40 [0, 1] ∧ s.device.ledger.inUse = 20 ∧ Counts s.device.stats [⟨1, 4⟩] ∧
      ∃ error e, s.step? Host.standard tenValues (.allocateBatch 2 6) =
        some (.error (.refused error), { s with device := e }) ∧ s.device.Restores e := by
  have hrun : ∃ (events : List (Event Float32)) (s : Session Float32),
      Run Host.standard tenValues (start tenValues) events s ∧ launched events = [⟨1, 4⟩] ∧
        s.held = [0, 1] ∧ s.device.ledger.inUse = 20 ∧
        ∃ error s', s.step? Host.standard tenValues (.allocateBatch 2 6) =
          some (.error (.refused error), s') :=
    ⟨_, _, .step (c := .launch 0 ⟨1, 4⟩) (.step (c := .bindCopy 1 0 2)
      (.step (c := .write 0 #[1, 2]) (.step (c := .allocate 3) (.step (c := .allocate 2) .nil
        rfl rfl nofun) rfl rfl nofun) rfl rfl nofun) rfl rfl nofun) rfl rfl nofun,
      rfl, rfl, rfl, _, _, rfl⟩
  obtain ⟨events, s, hrun, hlaunched, hheld, hbytes, error, s', hstep⟩ := hrun
  obtain ⟨haccounts, hcounts, -, hrefused⟩ := run_keeps_accounts hrun
  obtain ⟨e, rfl, hrestores⟩ := hrefused _ error s' rfl hstep
  rw [hheld] at haccounts
  rw [hlaunched] at hcounts
  exact ⟨events, s, hrun, haccounts, hbytes, hcounts, error, e, hstep, hrestores⟩

end Session

end BatchAxpby
