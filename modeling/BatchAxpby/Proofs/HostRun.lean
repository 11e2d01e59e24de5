import BatchAxpby.Proofs.Comparison
import BatchAxpby.Proofs.Engines
import BatchAxpby.Proofs.Sizing

/-! # Runs on the host

Past sizing and seeding, a run on the host ends in its figures. A run that compares a pass with
the reference compares two equal buffers.
-/

namespace BatchAxpby

namespace Accumulate

theorem HostRun.passes_eq_ok {α : Type} {run : HostRun α} (effect : Array α → Array α)
    (hpass : ∀ t : Array α, t.size = run.b.size →
      run.pass t = .ok () (effect t) ∧ (effect t).size = run.b.size) (repeats : ℕ) :
    ∃ out, run.passes repeats = .ok out := by
  have hrun : (sweep repeats fun _ => run.pass) run.b =
      .ok () ((List.range repeats).foldl (fun t _ => effect t) run.b) := by
    rw [sweep_eq_forM]
    exact forM_eq_ok (fun t => t.size = run.b.size) rfl fun _ _ t ht => hpass t ht
  exact ⟨_, BufferM.result_eq_ok hrun⟩

variable {α : Type} [Scalar α] {host : Host} {p : Problem α} {settings : Settings} {count : ℕ}
  {a b : Array α} {surface : Surface}

def EngineUpdates (surface : Surface) (p : Problem α) (addressing : Addressing) (a : Array α)
    (size count : ℕ) : Prop :=
  ∃ (run : Engine α) (sources targets : Placement), engine surface = .ok run ∧
    p.placementA addressing a.size count = .ok sources ∧
    p.placementB addressing size count = .ok targets ∧
    ∀ t : Array α, t.size = size →
      run p.update a sources targets count t = .ok () (p.updated a count t)

theorem engineUpdates_of_isBatch (h : p.IsBatch a b count) (hcount : 0 < count)
    (hsurface : surface ≠ .device) (addressing : Addressing) :
    EngineUpdates surface p addressing a b.size count := by
  obtain ⟨sources, targets, _, hsources, htargets, -, -, hengines⟩ :=
    h.engines_eq_updated hcount addressing
  cases surface with
  | sequential =>
    exact ⟨_, sources, targets, rfl, hsources, htargets, fun t ht => (hengines t ht).1⟩
  | parallel =>
    exact ⟨_, sources, targets, rfl, hsources, htargets, fun t ht => (hengines t ht).2.1⟩
  | device => exact absurd rfl hsurface

theorem Seeded.prepareHost_eq (h : Seeded host p settings count a b)
    (hengine : EngineUpdates surface p settings.addressing a b.size count)
    (hreference : p.reference a count b = .ok () (p.updated a count b))
    (hvalid : p.validate = .ok ()) :
    ∃ run : HostRun α, run.count = count ∧ run.mismatches = none ∧ run.b = b ∧
      (∀ t : Array α, t.size = b.size → run.pass t = .ok () (p.updated a count t)) ∧
      prepareHost host surface p settings =
        if settings.validates then do
          let found ← p.mismatches (p.updated a count b) (p.updated a count b) count
          return { run with b := p.updated a count b, mismatches := some found }
        else .ok run := by
  obtain ⟨engine, sources, targets, hengine, hsources, htargets, hrun⟩ := hengine
  refine ⟨⟨engine, p.update, a, b, count, sources, targets, none⟩, rfl, rfl, rfl, hrun, ?_⟩
  rw [prepareHost, outcome_bind_of_error_ok hengine, except_bind_of_ok hvalid,
    except_bind_of_ok h.plan_eq, except_bind_of_ok h.operands_eq]
  simp only
  rw [outcome_bind_of_fault_ok hsources, outcome_bind_of_fault_ok htargets]
  have hpass : BufferM.result (HostRun.pass ⟨engine, p.update, a, b, count, sources, targets, none⟩)
      b = .ok (p.updated a count b) := BufferM.result_eq_ok (hrun b rfl)
  split_ifs
  · rw [outcome_bind_of_fault_ok (BufferM.result_eq_ok hreference),
      outcome_bind_of_fault_ok hpass]
  · rfl

theorem runOnHost_eq_refused {e : Error} (h : StorageRefused host p settings e)
    (hvalid : p.validate = .ok ()) (hsurface : surface ≠ .device) (elapsed : Float) :
    runOnHost host surface p settings elapsed = .error (.refused e) := by
  have hengine : ∃ run : Engine α, engine surface = .ok run := by
    cases surface with
    | sequential => exact ⟨_, rfl⟩
    | parallel => exact ⟨_, rfl⟩
    | device => exact absurd rfl hsurface
  obtain ⟨run, hengine⟩ := hengine
  rw [runOnHost, prepareHost, outcome_bind_of_error_ok hengine, except_bind_of_ok hvalid]
  rcases h with hplan | ⟨count, hplan, hops⟩
  · rw [except_bind_of_error hplan, except_bind_of_error rfl]
  · rw [except_bind_of_ok hplan, except_bind_of_error hops, except_bind_of_error rfl]

theorem Seeded.runOnHost_eq_of_engine (h : Seeded host p settings count a b)
    (hengine : EngineUpdates surface p settings.addressing a b.size count)
    (hreference : p.reference a count b = .ok () (p.updated a count b))
    (hvalid : p.validate = .ok ()) (elapsed : Float) :
    runOnHost host surface p settings elapsed = (do
      let found ← if settings.validates then
          some <$> p.mismatches (p.updated a count b) (p.updated a count b) count
        else pure none
      figures surface none p settings count elapsed found) := by
  obtain ⟨run, rfl, hnone, rfl, hpass, hprepare⟩ := h.prepareHost_eq hengine hreference hvalid
  -- A pass keeps the size of `B`, so the next pass ends like the first one.
  have hpasses : ∀ run' : HostRun α, run'.pass = run.pass → run'.b.size = run.b.size →
      ∃ out, run'.passes settings.repeats = .ok out := by
    intro run' heq hsize
    refine HostRun.passes_eq_ok (p.updated a run.count) (fun t ht => ?_) settings.repeats
    exact ⟨heq ▸ hpass t (ht.trans hsize), (p.size_updated a run.count t).trans ht⟩
  rw [runOnHost, hprepare]
  split_ifs
  · cases hm : p.mismatches (p.updated a run.count run.b) (p.updated a run.count run.b)
        run.count with
    | error e => rfl
    | ok found =>
      obtain ⟨out, hout⟩ := hpasses
        { run with b := p.updated a run.count run.b, mismatches := some found } rfl
        (p.size_updated a run.count run.b)
      exact outcome_bind_of_fault_ok hout _
  · obtain ⟨out, hout⟩ := hpasses run rfl rfl
    rw [except_bind_of_ok rfl, outcome_bind_of_fault_ok hout, hnone]
    rfl

theorem Seeded.runOnHost_eq (h : Seeded host p settings count a b) (hp : p.Sound)
    (hvalid : p.validate = .ok ()) (hsurface : surface ≠ .device) (elapsed : Float) :
    runOnHost host surface p settings elapsed = (do
      let found ← if settings.validates then
          some <$> p.mismatches (p.updated a count b) (p.updated a count b) count
        else pure none
      figures surface none p settings count elapsed found) :=
  have hbatch := h.isBatch hp
  h.runOnHost_eq_of_engine (engineUpdates_of_isBatch hbatch h.count_pos hsurface _)
    hbatch.reference_eq_ok hvalid elapsed

end Accumulate

end BatchAxpby
