import Mathlib.Data.List.ProdSigma
import BatchAxpby.Error
import BatchAxpby.Sweep

/-! # Running computations

A computation that ends is peeled apart into its steps. A sweep is the loop over the list of
its indices, and nested loops are one loop over all pairs of indices. A loop whose tasks all
end leaves the state that folding their effects gives.
-/

namespace BatchAxpby

variable {ε σ β γ : Type} {ι κ : Type}

theorem except_bind_eq_ok {x : Except ε β} {f : β → Except ε γ} {r : γ} :
    x >>= f = .ok r ↔ ∃ v, x = .ok v ∧ f v = .ok r := by
  cases x with
  | ok v => exact ⟨fun h => ⟨v, rfl, h⟩, fun ⟨_, hv, h⟩ => by cases hv; exact h⟩
  | error e => exact ⟨(nomatch ·), fun ⟨_, hv, _⟩ => nomatch hv⟩

theorem except_bind_eq_error {x : Except ε β} {f : β → Except ε γ} {e : ε}
    (h : x >>= f = .error e) : x = .error e ∨ ∃ v, x = .ok v ∧ f v = .error e := by
  cases x with
  | ok v => exact Or.inr ⟨v, rfl, h⟩
  | error e' =>
    cases h
    exact Or.inl rfl

theorem exists_error_iff {x : Except ε β} : (∃ e, x = .error e) ↔ ¬ ∃ v, x = .ok v := by
  cases x with
  | ok v => simp
  | error e => simp

theorem liftFault_eq_ok {x : Except Fault β} {v : β} :
    (liftM x : Outcome β) = .ok v ↔ x = .ok v := by
  cases x with
  | ok w => exact ⟨fun h => congrArg Except.ok (Except.ok.inj h), fun h => by cases h; rfl⟩
  | error e => exact ⟨(nomatch ·), (nomatch ·)⟩

theorem liftError_eq_ok {x : Except Error β} {v : β} :
    (liftM x : Outcome β) = .ok v ↔ x = .ok v := by
  cases x with
  | ok w => exact ⟨fun h => congrArg Except.ok (Except.ok.inj h), fun h => by cases h; rfl⟩
  | error e => exact ⟨(nomatch ·), (nomatch ·)⟩

theorem liftError_ne_fault {x : Except Error β} {fault : Fault} :
    (liftM x : Outcome β) ≠ .error (.fault fault) := by
  cases x with
  | ok v => exact nofun
  | error e => exact nofun

theorem outcome_bind_of_fault_ok {x : Except Fault β} {v : β} (h : x = .ok v)
    (f : β → Outcome γ) : (liftM x : Outcome β) >>= f = f v := by
  subst h; rfl

theorem outcome_bind_of_error_ok {x : Except Error β} {v : β} (h : x = .ok v)
    (f : β → Outcome γ) : (liftM x : Outcome β) >>= f = f v := by
  subst h; rfl

theorem except_bind_of_ok {x : Except ε β} {v : β} (h : x = .ok v) (f : β → Except ε γ) :
    x >>= f = f v := by
  subst h; rfl

theorem except_bind_of_error {x : Except ε β} {e : ε} (h : x = .error e) (f : β → Except ε γ) :
    x >>= f = .error e := by
  subst h; rfl

theorem lift_bind_of_ok {x : Except ε β} {v : β} (h : x = .ok v) (f : β → EStateM ε σ γ) (s : σ) :
    ((liftM x : EStateM ε σ β) >>= f) s = f v s := by
  subst h; rfl

theorem lift_bind_of_error {x : Except ε β} {e : ε} (h : x = .error e) (f : β → EStateM ε σ γ)
    (s : σ) : ((liftM x : EStateM ε σ β) >>= f) s = .error e s := by
  subst h; rfl

theorem bind_of_ok {x : EStateM ε σ β} {f : β → EStateM ε σ γ} {s t : σ} {v : β}
    (h : x s = .ok v t) : (x >>= f) s = f v t := by
  change EStateM.bind x f s = f v t
  rw [EStateM.bind, h]

theorem bind_of_error {x : EStateM ε σ β} {f : β → EStateM ε σ γ} {s t : σ} {e : ε}
    (h : x s = .error e t) : (x >>= f) s = .error e t := by
  change EStateM.bind x f s = .error e t
  rw [EStateM.bind, h]

theorem bind_eq_ok {x : EStateM ε σ β} {f : β → EStateM ε σ γ} {s t : σ} {r : γ} :
    (x >>= f) s = .ok r t ↔ ∃ v s', x s = .ok v s' ∧ f v s' = .ok r t := by
  cases h : x s with
  | ok v s' =>
    rw [bind_of_ok h]
    exact ⟨fun hf => ⟨v, s', rfl, hf⟩, fun ⟨_, _, hv, hf⟩ => by cases hv; exact hf⟩
  | error e s' =>
    rw [bind_of_error h]
    exact ⟨(nomatch ·), fun ⟨_, _, hv, _⟩ => nomatch hv⟩

theorem bind_eq_error {x : EStateM ε σ β} {f : β → EStateM ε σ γ} {s t : σ} {e : ε}
    (h : (x >>= f) s = .error e t) :
    x s = .error e t ∨ ∃ v s', x s = .ok v s' ∧ f v s' = .error e t := by
  cases hx : x s with
  | ok v s' =>
    rw [bind_of_ok hx] at h
    exact Or.inr ⟨v, s', rfl, h⟩
  | error e' s' =>
    rw [bind_of_error hx] at h
    cases h
    exact Or.inl rfl

theorem lift_bind_eq_ok {x : Except ε β} {f : β → EStateM ε σ γ} {s t : σ} {r : γ} :
    ((liftM x : EStateM ε σ β) >>= f) s = .ok r t ↔ ∃ v, x = .ok v ∧ f v s = .ok r t := by
  cases x with
  | ok v => exact ⟨fun h => ⟨v, rfl, h⟩, fun ⟨_, hv, h⟩ => by cases hv; exact h⟩
  | error e => exact ⟨(nomatch ·), fun ⟨_, hv, _⟩ => nomatch hv⟩

theorem lift_bind_eq_error {x : Except ε β} {f : β → EStateM ε σ γ} {s t : σ} {e : ε}
    (h : ((liftM x : EStateM ε σ β) >>= f) s = .error e t) :
    x = .error e ∧ t = s ∨ ∃ v, x = .ok v ∧ f v s = .error e t := by
  cases x with
  | ok v => exact Or.inr ⟨v, rfl, h⟩
  | error e' =>
    cases h
    exact Or.inl ⟨rfl, rfl⟩

theorem forM_cons_of_ok {task : ι → EStateM ε σ Unit} {i : ι} {l : List ι} {s t : σ}
    (h : task i s = .ok () t) : forM (i :: l) task s = forM l task t :=
  bind_of_ok h

theorem sweepFrom_succ_eq_ok {task : ℕ → EStateM ε σ Unit} {count start : ℕ} {s t : σ}
    (h : sweepFrom task (count + 1) start s = .ok () t) :
    ∃ s', task start s = .ok () s' ∧ sweepFrom task count (start + 1) s' = .ok () t := by
  cases htask : task start s with
  | ok v s' =>
    rw [sweepFrom_succ_of_ok htask] at h
    exact ⟨s', rfl, h⟩
  | error e s' =>
    rw [sweepFrom_succ_of_error htask] at h
    exact nomatch h

theorem sweepFrom_eq_ok_of_le {task : ℕ → EStateM ε σ Unit} {count k start : ℕ} {s t : σ}
    (h : sweepFrom task count start s = .ok () t) (hk : k ≤ count) :
    ∃ t', sweepFrom task k start s = .ok () t' := by
  induction k generalizing count start s with
  | zero => exact ⟨s, rfl⟩
  | succ k ih =>
    obtain ⟨n, rfl⟩ : ∃ n, count = n + 1 := ⟨count - 1, by omega⟩
    obtain ⟨s', htask, hrest⟩ := sweepFrom_succ_eq_ok h
    rw [sweepFrom_succ_of_ok htask]
    exact ih hrest (by omega)

theorem sweepFrom_eq_forM (task : ℕ → EStateM ε σ Unit) (count start : ℕ) (s : σ) :
    sweepFrom task count start s = forM (List.range' start count) task s := by
  induction count generalizing start s with
  | zero => rfl
  | succ count ih =>
    rw [List.range'_succ]
    cases h : task start s with
    | ok v t => rw [sweepFrom_succ_of_ok h, ih, forM_cons_of_ok h]
    | error e t => rw [sweepFrom_succ_of_error h, List.forM_cons, bind_of_error h]

theorem sweep_eq_forM (count : ℕ) (task : ℕ → EStateM ε σ Unit) :
    sweep count task = forM (List.range count) task := by
  funext s
  rw [sweep, sweepFrom_eq_forM, List.range_eq_range']

theorem sweep_of_stop {task : ℕ → EStateM ε σ Unit} {count k : ℕ} (hk : k < count) {e : ε}
    {s t t' : σ} (hfirst : sweep k task s = .ok () t) (hstop : task k t = .error e t') :
    sweep count task s = .error e t' := by
  obtain ⟨rest, rfl⟩ := Nat.exists_eq_add_of_lt hk
  rw [sweep_eq_forM] at hfirst
  rw [sweep_eq_forM, Nat.add_assoc, List.range_add, List.range_succ_eq_map, List.map_cons,
    List.forM_append, bind_of_ok hfirst]
  exact bind_of_error hstop

theorem forM_flatMap (l : List ι) (f : ι → List κ) (task : κ → EStateM ε σ Unit) :
    forM (l.flatMap f) task = forM l fun i => forM (f i) task := by
  induction l with
  | nil => rfl
  | cons i l ih => rw [List.flatMap_cons, List.forM_append, ih, List.forM_cons]

theorem forM_product (l : List ι) (l' : List κ) (task : ι × κ → EStateM ε σ Unit) :
    forM (l ×ˢ l') task = forM l fun i => forM l' fun k => task (i, k) := by
  change forM (l.flatMap fun i => l'.map (i, ·)) task = _
  rw [forM_flatMap]
  simp only [List.forM_map]

/-- A loop whose tasks all end leaves the fold of their effects. -/
theorem forM_eq_ok {task : ι → EStateM ε σ Unit} {effect : σ → ι → σ} {l : List ι}
    (inv : σ → Prop) {s : σ} (hs : inv s)
    (h : ∀ i ∈ l, ∀ t, inv t → task i t = .ok () (effect t i) ∧ inv (effect t i)) :
    forM l task s = .ok () (l.foldl effect s) := by
  induction l generalizing s with
  | nil => rfl
  | cons i l ih =>
    obtain ⟨hi, hinv⟩ := h i List.mem_cons_self s hs
    rw [forM_cons_of_ok hi, List.foldl_cons]
    exact ih hinv fun j hj => h j (List.mem_cons_of_mem i hj)

theorem forM_eq_self {task : ι → EStateM ε σ Unit} {l : List ι} {s : σ}
    (h : ∀ i ∈ l, task i s = .ok () s) : forM l task s = .ok () s := by
  induction l with
  | nil => rfl
  | cons i l ih =>
    rw [forM_cons_of_ok (h i List.mem_cons_self)]
    exact ih fun j hj => h j (List.mem_cons_of_mem i hj)

theorem forM_ok_of_mem {task : ι → EStateM ε σ Unit} {l : List ι} {s t : σ}
    (h : forM l task s = .ok () t) {i : ι} (hi : i ∈ l) : ∃ s' t', task i s' = .ok () t' := by
  induction l generalizing s with
  | nil => exact absurd hi List.not_mem_nil
  | cons j l ih =>
    obtain ⟨_, s', hj, hl⟩ := bind_eq_ok.mp h
    rcases List.mem_cons.mp hi with rfl | hi
    · exact ⟨s, s', hj⟩
    · exact ih hl hi

/-- A loop that ends keeps what each of its tasks keeps. -/
theorem forM_preserves {task : ι → EStateM ε σ Unit} {l : List ι} (inv : σ → Prop)
    (hinv : ∀ i ∈ l, ∀ s t, task i s = .ok () t → inv s → inv t) {s t : σ}
    (h : forM l task s = .ok () t) (hs : inv s) : inv t := by
  induction l generalizing s with
  | nil =>
    cases h
    exact hs
  | cons j l ih =>
    obtain ⟨_, s', hj, hl⟩ := bind_eq_ok.mp h
    exact ih (fun i hi => hinv i (List.mem_cons_of_mem j hi)) hl
      (hinv j List.mem_cons_self s s' hj hs)

theorem foldl_push_if (f : ℕ → Bool) (l : List ℕ) (found : Array ℕ) :
    l.foldl (fun found i => if f i then found.push i else found) found =
      found ++ (l.filter f).toArray := by
  induction l generalizing found with
  | nil => simp
  | cons i l ih =>
    rw [List.foldl_cons, ih]
    by_cases h : f i <;> simp [h]

theorem collect_eq_ok {count : ℕ} {test : ℕ → Except ε Bool} {f : ℕ → Bool}
    (h : ∀ i < count, test i = .ok (f i)) :
    collect count test = .ok ((List.range count).filter f).toArray := by
  unfold collect
  extract_lets task
  have hrun : sweep count task #[] =
      .ok () (#[] ++ ((List.range count).filter f).toArray) := by
    rw [sweep_eq_forM, ← foldl_push_if f]
    refine forM_eq_ok (fun _ => True) trivial fun i hi found _ => ⟨?_, trivial⟩
    simp only [task, h i (List.mem_range.mp hi)]
    cases f i <;> rfl
  rw [hrun]
  simp

theorem collect_eq_error {count : ℕ} {test : ℕ → Except ε Bool} {e : ε} (hcount : 0 < count)
    (h : test 0 = .error e) : collect count test = .error e := by
  unfold collect
  extract_lets task
  have htask : task 0 #[] = .error e #[] := by
    simp only [task, h]
  cases count with
  | zero => exact absurd hcount (Nat.lt_irrefl 0)
  | succ n => rw [sweep, sweepFrom_succ_of_error htask]

end BatchAxpby
