import Mathlib.Algebra.Order.Floor.Div
import BatchAxpby.Proofs.Batches
import BatchAxpby.Proofs.Interruptions

/-! # Parallel runs

The parallel engine sees as many targets as there are chunks, the last of which may be short, or
entries in a table. It has a task for each of these elements, up to the number asked for, and ends
if every task has room for its block. It then leaves what the sequential engine leaves on the same
elements, in whatever order the tasks run.
-/

namespace BatchAxpby

def Window.Apart (w w' : Window) : Prop :=
  ∀ i < w.size, ∀ j < w'.size, w.start + i ≠ w'.start + j

namespace Placement

variable {p : Placement} {size i j : ℕ} {w w' : Window}

/-- A window can be cut into chunks of at least one value; a table is cut already. -/
def Divisible : Placement → Prop
  | strided _ offset => 0 < offset
  | indirect _ => True

/-- The number of elements that parallel tasks can see. -/
def visible : Placement → ℕ
  | strided data offset => data.size ⌈/⌉ offset
  | indirect elements => elements.size

/-- The window of the task of element `i`: a chunk, which the next one or the end of the data cuts
off, or an entry of the table. -/
def piece? (p : Placement) (i : ℕ) : Option Window :=
  match p with
  | strided data offset =>
    if i < data.size ⌈/⌉ offset then
      some ⟨data.start + i * offset, min offset (data.size - i * offset)⟩
    else none
  | indirect elements => elements[i]?

def Exclusive : Placement → Prop
  | strided .. => True
  | indirect elements => ∀ (i j : ℕ) (w w' : Window), i ≠ j →
    elements[i]? = some w → elements[j]? = some w' → w.Apart w'

theorem mul_lt_of_lt_ceilDiv {len offset : ℕ} (h : i < len ⌈/⌉ offset) : i * offset < len := by
  rcases Nat.eq_zero_or_pos offset with rfl | hpos
  · rw [ceilDiv_zero] at h
    exact absurd h (Nat.not_lt_zero i)
  · by_contra hle
    have hle : len ≤ offset * i := by rw [Nat.mul_comm]; omega
    have hmost := (ceilDiv_le_iff_le_mul hpos).mpr hle
    omega

theorem pieces_of_divisible (h : p.Divisible) :
    ∃ pieces, p.pieces = .ok pieces ∧ pieces.size = p.visible ∧
      ∀ i, pieces[i]? = p.piece? i := by
  cases p with
  | strided data offset =>
    have hpos : 0 < offset := h
    refine ⟨_, if_neg (by omega), Array.size_ofFn, fun i => ?_⟩
    rw [Array.getElem?_ofFn, piece?, Nat.ceilDiv_eq_add_pred_div]
    rfl
  | indirect elements => exact ⟨elements, rfl, rfl, fun _ => rfl⟩

theorem pieces_of_not_divisible (h : ¬ p.Divisible) : p.pieces = .error .emptyChunk := by
  cases p with
  | strided data offset => exact if_pos (Nat.eq_zero_of_not_pos h)
  | indirect elements => exact absurd trivial h

theorem Within.piece? (hp : p.Within size) (h : p.piece? i = some w) : w.Within size := by
  cases p with
  | strided data offset =>
    have hdata : data.start + data.size ≤ size := hp
    simp only [Placement.piece?] at h
    split_ifs at h with hi
    cases h
    have hlt := mul_lt_of_lt_ceilDiv hi
    unfold Window.Within
    simp only
    omega
  | indirect elements => exact hp w (Array.mem_of_getElem? h)

theorem element?_of_piece? (h : p.piece? i = some w) :
    ∃ w', p.element? i = some w' ∧ w'.start = w.start ∧ w.size ≤ w'.size := by
  cases p with
  | strided data offset =>
    simp only [Placement.piece?] at h
    split_ifs at h with hi
    cases h
    exact ⟨_, if_pos (mul_lt_of_lt_ceilDiv hi).le, rfl, Nat.min_le_right ..⟩
  | indirect elements => exact ⟨w, h, rfl, le_rfl⟩

/-- Different tasks have no cell in common. -/
theorem piece?_apart (hp : p.Exclusive) (hij : i ≠ j) (hi : p.piece? i = some w)
    (hj : p.piece? j = some w') : w.Apart w' := by
  cases p with
  | strided data offset =>
    simp only [Placement.piece?] at hi hj
    split_ifs at hi hj
    cases hi
    cases hj
    intro k hk l hl hkl
    have hk : k < min offset (data.size - i * offset) := hk
    have hl : l < min offset (data.size - j * offset) := hl
    have hkl : data.start + i * offset + k = data.start + j * offset + l := hkl
    -- Both offsets are below the step, so the numbers of the chunks are equal.
    exact hij (cell_injective (show k < offset by omega) (show l < offset by omega)
      (by omega)).2
  | indirect elements => exact hp i j w w' hij hi hj

end Placement

namespace Batch

variable {α : Type} {u : Update α} {sources targets : Placement} {count i : ℕ}

/-- The source of element `i` is found and holds its block, and so does the window of its task. -/
def Fits (u : Update α) (sources targets : Placement) (i : ℕ) : Prop :=
  (∃ w, sources.element? i = some w ∧ u.lda * (u.cols - 1) + u.rows ≤ w.size) ∧
    ∃ w, targets.piece? i = some w ∧ u.ldb * (u.cols - 1) + u.rows ≤ w.size

theorem Fits.complete (h : Fits u sources targets i) : Complete u sources targets i := by
  obtain ⟨⟨wa, hwa, hsa⟩, wb, hwb, hsb⟩ := h
  obtain ⟨wb', hwb', -, hle⟩ := Placement.element?_of_piece? hwb
  exact ⟨wa, wb', windows?_eq_some.mpr ⟨hwa, hwb'⟩, inside_of_span_le hsa,
    inside_of_span_le (hsb.trans hle)⟩

theorem Fits.target_mem (h : Fits u sources targets i) {t : Touch}
    (ht : t ∈ elementTouches u sources targets i) :
    ∃ w, targets.piece? i = some w ∧ ∃ k < w.size, t.target = w.start + k := by
  obtain ⟨⟨wa, hwa, -⟩, w, hw, hroom⟩ := h
  obtain ⟨w', hw', hstart, -⟩ := Placement.element?_of_piece? hw
  rw [elementTouches, windows?_eq_some.mpr ⟨hwa, hw'⟩] at ht
  obtain ⟨row, hr, col, hc, rfl⟩ := Update.mem_touches.mp ht
  exact ⟨w, hw, row + col * u.ldb, inside_of_span_le hroom row hr col hc, by rw [hstart]⟩

theorem Fits.element_eq (hp : targets.Exclusive) {j : ℕ} (hi : Fits u sources targets i)
    (hj : Fits u sources targets j) {s t : Touch} (hs : s ∈ elementTouches u sources targets i)
    (ht : t ∈ elementTouches u sources targets j) (hst : s.target = t.target) : i = j := by
  by_contra hij
  obtain ⟨w, hw, k, hk, hks⟩ := hi.target_mem hs
  obtain ⟨w', hw', l, hl, hlt⟩ := hj.target_mem ht
  exact Placement.piece?_apart hp hij hw hw' k hk l hl (hks.symm.trans (hst.trans hlt))

theorem tasks_of_divisible (he : ¬ u.isEmpty) (hcount : 0 < count) (h : targets.Divisible) :
    ∃ pieces, tasks u targets count = .ok pieces ∧ pieces.size = min count targets.visible ∧
      ∀ i < min count targets.visible, pieces[i]? = targets.piece? i := by
  obtain ⟨pieces, hpieces, hsize, hget⟩ := Placement.pieces_of_divisible h
  refine ⟨pieces.extract 0 count, ?_, ?_, fun i hi => ?_⟩
  · rw [tasks, if_neg (by simp [he]; omega), hpieces]
    rfl
  · rw [Array.size_extract, hsize, Nat.sub_zero]
  · rw [Array.getElem?_extract, if_pos (by omega), Nat.zero_add, hget]

theorem tasks_of_not_divisible (he : ¬ u.isEmpty) (hcount : 0 < count)
    (h : ¬ targets.Divisible) : tasks u targets count = .error .emptyChunk := by
  rw [tasks, if_neg (by simp [he]; omega), Placement.pieces_of_not_divisible h]
  rfl

variable [Scalar α] {a b : Array α} {pieces : Array Window}

/-- The parallel engine, in an order that may depend on the number of its tasks. -/
def parallelBy (order : ℕ → List ℕ) (u : Update α) (a : Array α) (sources targets : Placement)
    (count : ℕ) : BufferM α Unit := do
  let pieces ← tasks u targets count
  parallelIn (order pieces.size) u a sources pieces

section Tasks

variable (hpiece : pieces[i]? = targets.piece? i)

include hpiece

theorem fits_of_piece_eq_ok (hr : 0 < u.rows) (hc : 0 < u.cols) {b' : Array α}
    (h : piece u a sources pieces i b = .ok () b') : Fits u sources targets i := by
  obtain ⟨wa, hwa, h⟩ := lift_bind_eq_ok.mp h
  cases hwb : pieces[i]? with
  | none =>
    rw [hwb] at h
    exact nomatch h
  | some wb =>
    rw [hwb] at h
    obtain ⟨hia, hib⟩ := Update.inside_of_apply_eq_ok h
    exact ⟨⟨wa, Placement.element?_of_resolve hwa, span_le_of_inside hr hc hia⟩,
      wb, hpiece ▸ hwb, span_le_of_inside hr hc hib⟩

theorem Fits.piece_eq_ok (h : Fits u sources targets i) (hsources : sources.Within a.size)
    (htargets : targets.Within b.size) (hsa : a.size < Word.bound) (hsb : b.size < Word.bound) :
    piece u a sources pieces i b =
      .ok () (u.touchAll a (elementTouches u sources targets i) b) := by
  obtain ⟨⟨wa, hwa, hroomA⟩, wb, hwb, hroomB⟩ := h
  obtain ⟨wb', hwb', hstart, -⟩ := Placement.element?_of_piece? hwb
  have hwindows : windows? sources targets i = some (wa, wb') := windows?_eq_some.mpr ⟨hwa, hwb'⟩
  rw [piece, lift_bind_of_ok (Placement.resolve_of_element? hsources hsa hwa), hpiece, hwb,
    elementTouches, hwindows]
  simp only [hstart]
  exact Update.apply_eq_ok (hsources.element? hwa) (htargets.piece? hwb) hsa hsb
    (inside_of_span_le hroomA) (inside_of_span_le hroomB)

end Tasks

section Runs

variable (hr : 0 < u.rows) (hc : 0 < u.cols) (hsources : sources.Within a.size)
  (htargets : targets.Within b.size) (hsa : a.size < Word.bound) (hsb : b.size < Word.bound)
  (hnum : pieces.size = min count targets.visible)
  (hpieces : ∀ i < min count targets.visible, pieces[i]? = targets.piece? i)

include hr hc hnum hpieces in
theorem fits_of_parallelIn_eq_ok {order : List ℕ} (horder : order.Perm (List.range pieces.size))
    {out : Array α} (h : parallelIn order u a sources pieces b = .ok () out) :
    ∀ i < min count targets.visible, Fits u sources targets i := by
  intro i hi
  have hmem : i ∈ order := horder.mem_iff.mpr (List.mem_range.mpr (hnum ▸ hi))
  obtain ⟨s, t, hst⟩ := forM_ok_of_mem h hmem
  exact fits_of_piece_eq_ok (hpieces i hi) hr hc hst

include hsources htargets hsa hsb hnum hpieces in
/-- Tasks with room for their blocks update their elements, in any order. -/
theorem parallelIn_of_fits (hexclusive : targets.Exclusive)
    (hfits : ∀ i < min count targets.visible, Fits u sources targets i)
    {order : List ℕ} (horder : order.Perm (List.range pieces.size)) :
    parallelIn order u a sources pieces b =
      .ok () (u.touchAll a ((List.range (min count targets.visible)).flatMap
        (elementTouches u sources targets)) b) := by
  rw [hnum] at horder
  have hlt : ∀ i ∈ order, i < min count targets.visible := fun i hi =>
    List.mem_range.mp (horder.mem_iff.mp hi)
  have hrun : parallelIn order u a sources pieces b =
      .ok () (u.touchAll a (order.flatMap (elementTouches u sources targets)) b) := by
    rw [parallelIn, List.forM_eq_forM]
    refine Update.forM_eq_touchAll fun i hi t ht => ?_
    exact (hfits i (hlt i hi)).piece_eq_ok (hpieces i (hlt i hi)) hsources (ht ▸ htargets) hsa
      (ht ▸ hsb)
  rw [hrun, u.touchAll_flatMap_perm a horder]
  intro i hi j hj s hs t ht hst
  exact (hfits i (hlt i hi)).element_eq hexclusive (hfits j (hlt j hj)) hs ht hst

end Runs

/-- The parallel engine ends exactly if the targets can be cut into chunks and each of the elements
that it sees, up to `count`, has a source with its block and a target with room for it. It then
leaves what the sequential engine leaves on these elements, for every order of its tasks. -/
theorem parallel_updates_visible {u : Update α} (hr : 0 < u.rows) (hc : 0 < u.cols)
    {a b : Array α} (hsa : a.size < Word.bound) (hsb : b.size < Word.bound)
    {sources targets : Placement} (hsources : sources.Within a.size)
    (htargets : targets.Within b.size) (hexclusive : targets.Exclusive) {count : ℕ}
    (hcount : 0 < count) :
    parallel u a sources targets count = parallelBy List.range u a sources targets count ∧
    ∀ order : ℕ → List ℕ, (∀ n, (order n).Perm (List.range n)) →
      ((∃ out, parallelBy order u a sources targets count b = .ok () out) ↔
        targets.Divisible ∧ ∀ i < min count targets.visible, Fits u sources targets i) ∧
      ∀ out, parallelBy order u a sources targets count b = .ok () out →
        sequential u a sources targets (min count targets.visible) b = .ok () out := by
  refine ⟨rfl, fun order horder => ?_⟩
  have he : ¬ u.isEmpty := Update.not_isEmpty hr hc
  by_cases hdiv : targets.Divisible
  · obtain ⟨pieces, htasks, hnum, hpieces⟩ := tasks_of_divisible he hcount hdiv
    have hby : parallelBy order u a sources targets count b =
        parallelIn (order pieces.size) u a sources pieces b := by
      rw [parallelBy, lift_bind_of_ok htasks]
    rw [hby]
    have hends : ∀ out, parallelIn (order pieces.size) u a sources pieces b = .ok () out →
        ∀ i < min count targets.visible, Fits u sources targets i := fun out h =>
      fits_of_parallelIn_eq_ok hr hc hnum hpieces (horder _) h
    refine ⟨⟨?_, ?_⟩, ?_⟩
    · rintro ⟨out, h⟩
      exact ⟨hdiv, hends out h⟩
    · rintro ⟨-, hfits⟩
      exact ⟨_, parallelIn_of_fits hsources htargets hsa hsb hnum hpieces hexclusive hfits
        (horder _)⟩
    · intro out h
      have hfits := hends out h
      rw [parallelIn_of_fits hsources htargets hsa hsb hnum hpieces hexclusive hfits
        (horder _)] at h
      cases h
      exact sequential_of_complete hsources htargets hsa hsb fun i hi => (hfits i hi).complete
  · have hstop : parallelBy order u a sources targets count b = .error .emptyChunk b := by
      rw [parallelBy, lift_bind_of_error (tasks_of_not_divisible he hcount hdiv)]
    rw [hstop]
    refine ⟨⟨?_, fun h => absurd h.1 hdiv⟩, fun out h => nomatch h⟩
    rintro ⟨out, h⟩
    exact nomatch h

/-- Of five elements only two have a chunk. The tasks of these two end in reverse order, although
there is no source for a third. -/
theorem two_of_five_visible :
    parallelBy (fun n => (List.range n).reverse) closeColumns #[1, 2, 3] (.strided (.whole 3) 1)
        (.strided (.whole 6) 3) 5 (.replicate 6 1) = .ok () #[5, 19, 7, 7, 27, 9] ∧
    sequential closeColumns #[1, 2, 3] (.strided (.whole 3) 1) (.strided (.whole 6) 3) 2
      (.replicate 6 1) = .ok () #[5, 19, 7, 7, 27, 9] := by
  have hsources : (Placement.strided (.whole 3) 1).Within (#[1, 2, 3] : Array Float32).size :=
    Nat.le_refl 3
  have htargets : (Placement.strided (.whole 6) 3).Within
      (Array.replicate 6 (1 : Float32)).size := by
    simp [Placement.Within, Window.Within, Window.whole]
  obtain ⟨-, horders⟩ := parallel_updates_visible (u := closeColumns) (by decide) (by decide)
    (a := #[1, 2, 3]) (b := .replicate 6 1) (by decide) (by simp [Word.bound]) hsources htargets
    trivial (show 0 < 5 by decide)
  obtain ⟨hends, hsame⟩ := horders (fun n => (List.range n).reverse) fun n => List.reverse_perm _
  have hfits : ∀ i < min 5 (Placement.strided (.whole 6) 3).visible,
      Fits closeColumns (.strided (.whole 3) 1) (.strided (.whole 6) 3) i := by
    intro i hi
    have hi : i < 2 := hi
    obtain rfl | rfl : i = 0 ∨ i = 1 := by omega
    · exact ⟨⟨⟨0, 3⟩, rfl, by decide⟩, ⟨0, 3⟩, rfl, by decide⟩
    · exact ⟨⟨⟨1, 2⟩, rfl, by decide⟩, ⟨3, 3⟩, rfl, by decide⟩
  obtain ⟨out, hout⟩ := hends.mpr ⟨Nat.succ_pos 2, hfits⟩
  have hvalue : (sequential closeColumns #[1, 2, 3] (.strided (.whole 3) 1)
      (.strided (.whole 6) 3) 2).result (.replicate 6 1) = .ok #[5, 19, 7, 7, 27, 9] := by
    decide +kernel
  have hseq := BufferM.eq_ok_of_result hvalue
  have hsame : sequential closeColumns #[1, 2, 3] (.strided (.whole 3) 1) (.strided (.whole 6) 3) 2
      (.replicate 6 1) = .ok () out := hsame out hout
  rw [hseq] at hsame
  cases hsame
  exact ⟨hout, hseq⟩

end Batch

end BatchAxpby
