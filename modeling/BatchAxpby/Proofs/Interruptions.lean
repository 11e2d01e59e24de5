import Mathlib.Data.List.TakeWhile
import BatchAxpby.Proofs.Engines
import BatchAxpby.Proofs.KernelContract

/-! # Where a run stops

The kernel stops at the first cell that one of its operands does not have, and the cells before it
keep their new values. The sequential engine stops at the first element that is not found or not
complete: earlier elements are updated in full, this one up to its first missing cell, and later
ones not at all. A product that leaves the word range always belongs to a missing cell.
-/

namespace BatchAxpby

section Loops

variable {ε σ ι : Type}

/-- Work that ends if `complete` holds and stops otherwise, and leaves `out` in either case. -/
structure EndsIff (r : EStateM.Result ε σ Unit) (complete : Prop) (out : σ) : Prop where
  ok : complete → r = .ok () out
  error : ¬ complete → ∃ e, r = .error e out

/-- A loop leaves the effects of the tasks before the first one that stops. -/
theorem forM_endsIff {task : ι → EStateM ε σ Unit} {effect : σ → ι → σ} (complete : ι → Prop)
    [DecidablePred complete] {l : List ι} (inv : σ → Prop) {s : σ} (hs : inv s)
    (hok : ∀ i, complete i → ∀ t, inv t → task i t = .ok () (effect t i) ∧ inv (effect t i))
    (hstop : ∀ i, ¬ complete i → ∀ t, ∃ e, task i t = .error e t) :
    EndsIff (forM l task s) (∀ i ∈ l, complete i)
      ((l.takeWhile (complete ·)).foldl effect s) := by
  induction l generalizing s with
  | nil => exact ⟨fun _ => rfl, fun hn => absurd (fun i hi => absurd hi List.not_mem_nil) hn⟩
  | cons i l ih =>
    by_cases hi : complete i
    · obtain ⟨htask, hinv⟩ := hok i hi s hs
      rw [List.takeWhile_cons_of_pos (by simpa using hi), List.foldl_cons, forM_cons_of_ok htask,
        List.forall_mem_cons, and_iff_right hi]
      exact ih hinv
    · obtain ⟨e, he⟩ := hstop i hi s
      rw [List.takeWhile_cons_of_neg (by simpa using hi)]
      exact ⟨fun hall => absurd (hall i List.mem_cons_self) hi, fun _ => ⟨e, bind_of_error he⟩⟩

def KeepsOnStop {β : Type} (work : EStateM ε σ β) : Prop :=
  ∀ ⦃s e t⦄, work s = .error e t → t = s

theorem KeepsOnStop.lift_bind {β γ : Type} {x : Except ε β} {f : β → EStateM ε σ γ}
    (h : ∀ v, KeepsOnStop (f v)) : KeepsOnStop ((liftM x : EStateM ε σ β) >>= f) := by
  intro s e t hstop
  obtain ⟨-, rfl⟩ | ⟨v, -, hv⟩ := lift_bind_eq_error hstop
  · rfl
  · exact h v hv

end Loops

theorem Window.modify_keepsOnStop {α : Type} (w : Window) (i : ℕ) (f : α → α) :
    KeepsOnStop (w.modify i f) := by
  intro data e data' h
  unfold modify at h
  split_ifs at h <;> cases h <;> rfl

namespace Update

variable {α : Type} {u : Update α} {wa wb : Window}

theorem length_order (u : Update α) : u.order.length = u.rows * u.cols := by
  unfold order
  split_ifs
  · rw [List.length_map, List.length_product, List.length_range, List.length_range, Nat.mul_comm]
  · rw [List.length_product, List.length_range, List.length_range]

def Has (u : Update α) (wa wb : Window) (c : ℕ × ℕ) : Prop :=
  c.1 + c.2 * u.lda < wa.size ∧ c.1 + c.2 * u.ldb < wb.size

instance (u : Update α) (wa wb : Window) : DecidablePred (u.Has wa wb) :=
  fun _ => inferInstanceAs (Decidable (_ ∧ _))

/-- The cells that the kernel reaches: all those before the first one that an operand lacks. -/
def reached (u : Update α) (wa wb : Window) : List (ℕ × ℕ) := u.order.takeWhile (u.Has wa wb ·)

def touchAt (u : Update α) (baseA baseB : ℕ) (c : ℕ × ℕ) : Touch :=
  ⟨baseA + (c.1 + c.2 * u.lda), baseB + (c.1 + c.2 * u.ldb)⟩

def reachedTouches (u : Update α) (wa wb : Window) : List Touch :=
  (u.reached wa wb).map (u.touchAt wa.start wb.start)

theorem forall_has_iff : (∀ c ∈ u.order, u.Has wa wb c) ↔
    Inside u.rows u.cols u.lda wa.size ∧ Inside u.rows u.cols u.ldb wb.size := by
  constructor
  · intro h
    have hcell : ∀ row < u.rows, ∀ col < u.cols, u.Has wa wb (row, col) := fun row hr col hc =>
      h (row, col) (mem_order.mpr ⟨hr, hc⟩)
    exact ⟨fun row hr col hc => (hcell row hr col hc).1,
      fun row hr col hc => (hcell row hr col hc).2⟩
  · rintro ⟨hia, hib⟩ c hc
    obtain ⟨hr, hc⟩ := mem_order.mp hc
    exact ⟨hia _ hr _ hc, hib _ hr _ hc⟩

theorem length_reached_iff : (u.reached wa wb).length = u.rows * u.cols ↔
    ∀ c ∈ u.order, u.Has wa wb c := by
  rw [← u.length_order]
  constructor
  · intro h c hc
    rw [← (List.takeWhile_prefix _).eq_of_length h] at hc
    simpa using List.mem_takeWhile_imp hc
  · intro h
    rw [reached, List.takeWhile_eq_self_iff.mpr (by simpa using h)]

theorem reachedTouches_of_inside (hia : Inside u.rows u.cols u.lda wa.size)
    (hib : Inside u.rows u.cols u.ldb wb.size) :
    u.reachedTouches wa wb = u.touches wa.start wb.start := by
  have hall := forall_has_iff.mpr ⟨hia, hib⟩
  rw [reachedTouches, reached, List.takeWhile_eq_self_iff.mpr (by simpa using hall)]
  rfl

variable [Scalar α] {a b : Array α}

theorem cell_keepsOnStop (u : Update α) (a : Array α) (wa wb : Window) (c : ℕ × ℕ) :
    KeepsOnStop (u.cell a wa wb c) := by
  unfold cell
  split_ifs
  · exact .lift_bind fun _ => .lift_bind fun _ => .lift_bind fun _ => .lift_bind fun _ =>
      .lift_bind fun _ => Window.modify_keepsOnStop ..
  · exact .lift_bind fun _ => .lift_bind fun _ => .lift_bind fun _ => .lift_bind fun _ =>
      .lift_bind fun _ => Window.modify_keepsOnStop ..

theorem cell_of_not_has {c : ℕ × ℕ} (hc : ¬ u.Has wa wb c) (b : Array α) :
    ∃ e, u.cell a wa wb c b = .error e b := by
  cases h : u.cell a wa wb c b with
  | ok _ b' =>
    obtain ⟨hca, hcb, -⟩ := cell_eq_ok_imp h
    exact absurd ⟨hca, hcb⟩ hc
  | error e b' =>
    obtain rfl := u.cell_keepsOnStop a wa wb c h
    exact ⟨e, rfl⟩

/-- The kernel updates the cells that it reaches, and ends if these are all cells of the block. -/
theorem apply_endsIff (ha : wa.Within a.size) (hb : wb.Within b.size) (hsa : a.size < Word.bound)
    (hsb : b.size < Word.bound) :
    EndsIff (u.apply a wa wb b) ((u.reached wa wb).length = u.rows * u.cols)
      (u.touchAll a (u.reachedTouches wa wb) b) := by
  rw [apply_eq_forM, length_reached_iff, touchAll, reachedTouches, List.foldl_map]
  refine forM_endsIff (u.Has wa wb) (fun t => t.size = b.size) rfl ?_ fun c hc t =>
    cell_of_not_has hc t
  intro c hc t ht
  refine ⟨cell_eq_ok ha (ht ▸ hb) hsa (ht ▸ hsb) hc.1 hc.2, ?_⟩
  rw [size_touch, ht]

end Update

namespace Placement

variable {p : Placement} {size i : ℕ} {w : Window}

def Within (p : Placement) (size : ℕ) : Prop :=
  match p with
  | strided data _ => data.Within size
  | indirect elements => ∀ w ∈ elements, w.Within size

/-- The window of element `i`. A base may stand behind the last value, but not further. -/
def element? (p : Placement) (i : ℕ) : Option Window :=
  match p with
  | strided data offset =>
    if i * offset ≤ data.size then some ⟨data.start + i * offset, data.size - i * offset⟩ else none
  | indirect elements => elements[i]?

theorem Within.element? (hp : p.Within size) (h : p.element? i = some w) : w.Within size := by
  cases p with
  | strided data offset =>
    simp only [Placement.element?] at h
    split_ifs at h with hi
    cases h
    exact Window.Within.tail hp hi
  | indirect elements => exact hp w (Array.mem_of_getElem? h)

theorem resolve_of_element? (hp : p.Within size) (hlt : size < Word.bound)
    (h : p.element? i = some w) : p.resolve i = .ok w := by
  cases p with
  | strided data offset =>
    have hdata : data.start + data.size ≤ size := hp
    simp only [Placement.element?] at h
    split_ifs at h with hi
    cases h
    rw [resolve, Word.mul_eq_ok_iff.mpr ⟨show i * offset < Word.bound by omega, rfl⟩]
    exact Window.tail_of_le hi
  | indirect elements =>
    have h : elements[i]? = some w := h
    rw [resolve, h]

theorem element?_of_resolve (h : p.resolve i = .ok w) : p.element? i = some w := by
  cases p with
  | strided data offset =>
    obtain ⟨_, hmul, htail⟩ := except_bind_eq_ok.mp h
    obtain ⟨-, rfl⟩ := Word.mul_eq_ok_iff.mp hmul
    obtain ⟨hle, rfl⟩ := Window.tail_eq_ok htail
    exact if_pos hle
  | indirect elements =>
    rw [resolve] at h
    split at h
    · next hw =>
      cases h
      exact hw
    · cases h

end Placement

namespace Batch

variable {α : Type} {u : Update α} {sources targets : Placement} {i : ℕ}

def windows? (sources targets : Placement) (i : ℕ) : Option (Window × Window) :=
  (sources.element? i).bind fun wa => (targets.element? i).map (wa, ·)

/-- Element `i` is found, and its windows hold all cells of the block. -/
def Complete (u : Update α) (sources targets : Placement) (i : ℕ) : Prop :=
  ∃ wa wb, windows? sources targets i = some (wa, wb) ∧
    Inside u.rows u.cols u.lda wa.size ∧ Inside u.rows u.cols u.ldb wb.size

def elementTouches (u : Update α) (sources targets : Placement) (i : ℕ) : List Touch :=
  match windows? sources targets i with
  | some (wa, wb) => u.touches wa.start wb.start
  | none => []

def reachedTouches (u : Update α) (sources targets : Placement) (i : ℕ) : List Touch :=
  match windows? sources targets i with
  | some (wa, wb) => u.reachedTouches wa wb
  | none => []

theorem windows?_eq_some {wa wb : Window} : windows? sources targets i = some (wa, wb) ↔
    sources.element? i = some wa ∧ targets.element? i = some wb := by
  simp [windows?, Option.bind_eq_some_iff, Option.map_eq_some_iff]

theorem Complete.reachedTouches_eq (h : Complete u sources targets i) :
    reachedTouches u sources targets i = elementTouches u sources targets i := by
  obtain ⟨wa, wb, hw, hia, hib⟩ := h
  rw [reachedTouches, elementTouches, hw]
  exact Update.reachedTouches_of_inside hia hib

variable [Scalar α] {a b : Array α} {count : ℕ}

section Runs

variable (hsources : sources.Within a.size) (htargets : targets.Within b.size)
  (hsa : a.size < Word.bound) (hsb : b.size < Word.bound)

include hsources htargets hsa hsb

theorem element_eq_apply {wa wb : Window} (hw : windows? sources targets i = some (wa, wb)) :
    element u a sources targets i b = u.apply a wa wb b := by
  obtain ⟨hwa, hwb⟩ := windows?_eq_some.mp hw
  rw [element, lift_bind_of_ok (Placement.resolve_of_element? hsources hsa hwa),
    lift_bind_of_ok (Placement.resolve_of_element? htargets hsb hwb)]

omit hsources htargets hsa hsb in
theorem element_of_windows?_eq_none (hw : windows? sources targets i = none) :
    ∃ e, element u a sources targets i b = .error e b := by
  cases hs : sources.resolve i with
  | error e => exact ⟨e, by rw [element, lift_bind_of_error hs]⟩
  | ok wa =>
    cases ht : targets.resolve i with
    | error e => exact ⟨e, by rw [element, lift_bind_of_ok hs, lift_bind_of_error ht]⟩
    | ok wb =>
      have hsome := windows?_eq_some.mpr
        ⟨Placement.element?_of_resolve hs, Placement.element?_of_resolve ht⟩
      cases hw.symm.trans hsome

theorem element_endsIff :
    EndsIff (element u a sources targets i b) (Complete u sources targets i)
      (u.touchAll a (reachedTouches u sources targets i) b) := by
  cases hw : windows? sources targets i with
  | none =>
    rw [reachedTouches, hw]
    refine ⟨?_, fun _ => element_of_windows?_eq_none hw⟩
    rintro ⟨wa, wb, hsome, -⟩
    cases hw.symm.trans hsome
  | some w =>
    obtain ⟨wa, wb⟩ := w
    obtain ⟨hwa, hwb⟩ := windows?_eq_some.mp hw
    have hcomplete : Complete u sources targets i ↔
        (u.reached wa wb).length = u.rows * u.cols := by
      rw [Update.length_reached_iff, Update.forall_has_iff, Complete, hw]
      simp
    rw [reachedTouches, hw, element_eq_apply hsources htargets hsa hsb hw, hcomplete]
    exact Update.apply_endsIff (hsources.element? hwa) (htargets.element? hwb) hsa hsb

theorem sequential_of_complete (h : ∀ i < count, Complete u sources targets i) :
    sequential u a sources targets count b =
      .ok () (u.touchAll a ((List.range count).flatMap (elementTouches u sources targets)) b) := by
  rw [sequential, sweep_eq_forM]
  refine Update.forM_eq_touchAll fun i hi t ht => ?_
  have hi := h i (List.mem_range.mp hi)
  rw [← hi.reachedTouches_eq]
  exact (element_endsIff hsources (ht ▸ htargets) hsa (ht ▸ hsb)).ok hi

theorem sequential_of_not_complete {k : ℕ} (hk : k < count)
    (h : ∀ i < k, Complete u sources targets i) (hstop : ¬ Complete u sources targets k) :
    ∃ fault, sequential u a sources targets count b =
      .error fault (u.touchAll a ((List.range k).flatMap (elementTouches u sources targets) ++
        reachedTouches u sources targets k) b) := by
  have hfirst := sequential_of_complete hsources htargets hsa hsb h
  -- The elements before `k` are complete; `t` is what they leave to element `k`.
  let t := u.touchAll a ((List.range k).flatMap (elementTouches u sources targets)) b
  have hsize : t.size = b.size := u.size_touchAll ..
  obtain ⟨fault, hfault⟩ :=
    (element_endsIff (u := u) (i := k) hsources (hsize ▸ htargets) hsa (hsize ▸ hsb)).error hstop
  refine ⟨fault, ?_⟩
  rw [sequential, sweep_of_stop hk hfirst hfault, Update.touchAll, Update.touchAll,
    List.foldl_append]
  rfl

end Runs

/-- The kernel updates the longest run of cells, in its own order, that both operands have, and
ends exactly if these are all cells of the block. The sequential engine ends if all elements are
complete. Otherwise it stops at the first one that is not, with all elements before it updated in
full, this one on the cells that the kernel reaches, and no later one. -/
theorem runs_stop_at_first_gap (u : Update α) {a b : Array α} (hsa : a.size < Word.bound)
    (hsb : b.size < Word.bound) :
    (∀ wa wb : Window, wa.Within a.size → wb.Within b.size →
      EndsIff (u.apply a wa wb b) ((u.reached wa wb).length = u.rows * u.cols)
        (u.touchAll a ((u.reached wa wb).map (u.touchAt wa.start wb.start)) b)) ∧
    ∀ sources targets : Placement, sources.Within a.size → targets.Within b.size → ∀ count,
      ((∀ i < count, Complete u sources targets i) →
        sequential u a sources targets count b =
          .ok () (u.touchAll a
            ((List.range count).flatMap (elementTouches u sources targets)) b)) ∧
      ∀ k < count, (∀ i < k, Complete u sources targets i) → ¬ Complete u sources targets k →
        ∃ fault, sequential u a sources targets count b =
          .error fault (u.touchAll a ((List.range k).flatMap (elementTouches u sources targets) ++
            reachedTouches u sources targets k) b) := by
  refine ⟨fun wa wb ha hb => Update.apply_endsIff ha hb hsa hsb, ?_⟩
  intro sources targets hsources htargets count
  refine ⟨fun h => sequential_of_complete hsources htargets hsa hsb h, ?_⟩
  intro k hk hfirst hstop
  exact sequential_of_not_complete hsources htargets hsa hsb hk hfirst hstop

/-- Of three elements the second lacks the last cell of its block: the other three of its cells are
updated, and the third element is not looked up. -/
theorem second_of_three_stops : ∃ fault,
    sequential Update.overlapping #[1, 2, 3, 4, 5] (.strided (.whole 5) 2)
        (.indirect #[⟨1, 5⟩, ⟨6, 4⟩]) 3 (.replicate 10 1) =
      .error fault #[1, 5, 7, 1, 7, 9, 9, 11, 1, 11] := by
  have hsources : (Placement.strided (.whole 5) 2).Within
      (#[1, 2, 3, 4, 5] : Array Float32).size := Nat.le_refl 5
  have htargets : (Placement.indirect #[⟨1, 5⟩, ⟨6, 4⟩]).Within
      (Array.replicate 10 (1 : Float32)).size := by simp [Placement.Within, Window.Within]
  obtain ⟨-, hbatch⟩ := runs_stop_at_first_gap Update.overlapping (a := #[1, 2, 3, 4, 5])
    (b := .replicate 10 1) (by decide) (by simp [Word.bound])
  obtain ⟨-, hstops⟩ := hbatch _ _ hsources htargets 3
  have hfirst : ∀ i < 1, Complete Update.overlapping (.strided (.whole 5) 2)
      (.indirect #[⟨1, 5⟩, ⟨6, 4⟩]) i := by
    intro i hi
    obtain rfl : i = 0 := by omega
    exact ⟨⟨0, 5⟩, ⟨1, 5⟩, rfl, inside_of_span_le (by decide), inside_of_span_le (by decide)⟩
  have hsecond : ¬ Complete Update.overlapping (.strided (.whole 5) 2)
      (.indirect #[⟨1, 5⟩, ⟨6, 4⟩]) 1 := by
    rintro ⟨wa, wb, hw, -, hib⟩
    cases hw
    exact absurd (hib 1 (by decide) 1 (by decide)) (by decide)
  obtain ⟨fault, hfault⟩ := hstops 1 (by decide) hfirst hsecond
  refine ⟨fault, hfault.trans (congrArg _ ?_)⟩
  decide +kernel

end Batch

end BatchAxpby
