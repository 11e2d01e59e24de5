import Mathlib.Data.List.Perm.Basic
import BatchAxpby.Update.Basic

/-! # Touched cells

Every engine updates cells of `B` one at a time, each from one cell of `A`. A touch names the
two cells. The value that a list of touches leaves in a cell depends only on the touches of
that cell, so two lists that touch every cell in the same way leave the same buffer.
-/

namespace BatchAxpby

/-- One cell of `B` and the cell of `A` that it is updated from. -/
structure Touch where
  source : ℕ
  target : ℕ
  deriving DecidableEq, Repr

namespace Update

variable {α : Type} [Scalar α] (u : Update α) (a : Array α)

def newValue (source : ℕ) (y : α) : α :=
  match a[source]? with
  | some x => Scalar.axpby u.alpha x u.beta y
  | none => y

def touch (b : Array α) (t : Touch) : Array α := b.modify t.target (u.newValue a t.source)

/-- The buffer after all touches of a list, from the first to the last. -/
def touchAll (ts : List Touch) (b : Array α) : Array α := ts.foldl (u.touch a) b

def touchesOf (ts : List Touch) (i : ℕ) : List Touch := ts.filter (·.target = i)

def settle (ts : List Touch) (y : α) : α := ts.foldl (fun y t => u.newValue a t.source y) y

theorem newValue_of_getElem? {source : ℕ} {x : α} (h : a[source]? = some x) :
    u.newValue a source = Scalar.axpby u.alpha x u.beta := by
  funext y
  rw [newValue, h]

@[simp] theorem size_touch (b : Array α) (t : Touch) : (u.touch a b t).size = b.size :=
  Array.size_modify

@[simp] theorem touchAll_nil (b : Array α) : u.touchAll a [] b = b := rfl

@[simp] theorem touchAll_cons (t : Touch) (ts : List Touch) (b : Array α) :
    u.touchAll a (t :: ts) b = u.touchAll a ts (u.touch a b t) := rfl

theorem touchAll_flatMap {ι : Type} (l : List ι) (f : ι → List Touch) (b : Array α) :
    u.touchAll a (l.flatMap f) b = l.foldl (fun t i => u.touchAll a (f i) t) b :=
  List.foldl_flatMap

@[simp] theorem size_touchAll (ts : List Touch) (b : Array α) :
    (u.touchAll a ts b).size = b.size := by
  induction ts generalizing b with
  | nil => rfl
  | cons t ts ih => rw [touchAll_cons, ih, size_touch]

theorem touchesOf_cons (t : Touch) (ts : List Touch) (i : ℕ) :
    touchesOf (t :: ts) i = if t.target = i then t :: touchesOf ts i else touchesOf ts i := by
  simp [touchesOf, List.filter_cons]

theorem touchesOf_flatMap {ι : Type} (l : List ι) (f : ι → List Touch) (i : ℕ) :
    touchesOf (l.flatMap f) i = l.flatMap fun k => touchesOf (f k) i :=
  List.filter_flatMap

theorem touchesOf_eq_nil {ts : List Touch} {i : ℕ} (h : ∀ t ∈ ts, t.target ≠ i) :
    touchesOf ts i = [] :=
  List.filter_eq_nil_iff.mpr fun t ht => by simpa using h t ht

theorem touchesOf_eq_singleton {ts : List Touch} (hn : (ts.map Touch.target).Nodup) {t : Touch}
    (ht : t ∈ ts) : touchesOf ts t.target = [t] := by
  induction ts with
  | nil => exact absurd ht List.not_mem_nil
  | cons s ts ih =>
    obtain ⟨hs, hn⟩ := List.nodup_cons.mp hn
    rcases List.mem_cons.mp ht with rfl | ht
    · have hnil : touchesOf ts t.target = [] :=
        touchesOf_eq_nil fun r hr h => hs (h ▸ List.mem_map_of_mem hr)
      rw [touchesOf_cons, if_pos rfl, hnil]
    · have hne : s.target ≠ t.target := fun h => hs (h ▸ List.mem_map_of_mem ht)
      rw [touchesOf_cons, if_neg hne, ih hn ht]

theorem getElem?_touch (b : Array α) (t : Touch) (i : ℕ) :
    (u.touch a b t)[i]? =
      if t.target = i then b[i]?.map (u.newValue a t.source) else b[i]? := by
  rw [touch, Array.getElem?_modify]

/-- A cell holds its first value, settled by the touches of the cell. -/
theorem getElem?_touchAll (ts : List Touch) (b : Array α) (i : ℕ) :
    (u.touchAll a ts b)[i]? = b[i]?.map (u.settle a (touchesOf ts i)) := by
  induction ts generalizing b with
  | nil => exact Option.map_id'.symm
  | cons t ts ih =>
    rw [touchAll_cons, ih, getElem?_touch, touchesOf_cons]
    split_ifs with h
    · rw [Option.map_map]; rfl
    · rfl

theorem getElem?_touchAll_of_mem {ts : List Touch} (hn : (ts.map Touch.target).Nodup) {t : Touch}
    (ht : t ∈ ts) (b : Array α) :
    (u.touchAll a ts b)[t.target]? = b[t.target]?.map (u.newValue a t.source) := by
  rw [getElem?_touchAll, touchesOf_eq_singleton hn ht]
  rfl

theorem getElem?_touchAll_of_forall_ne {ts : List Touch} {i : ℕ} (h : ∀ t ∈ ts, t.target ≠ i)
    (b : Array α) : (u.touchAll a ts b)[i]? = b[i]? := by
  rw [getElem?_touchAll, touchesOf_eq_nil h]
  exact Option.map_id'

theorem touchAll_congr {ts ts' : List Touch} (h : ∀ i, touchesOf ts i = touchesOf ts' i)
    (b : Array α) : u.touchAll a ts b = u.touchAll a ts' b := by
  apply Array.ext_getElem?
  intro i
  rw [getElem?_touchAll, getElem?_touchAll, h]

/-- When every cell has one owner, lists that agree owner by owner leave the same buffer. -/
theorem touchAll_map_congr {ι κ : Type} [DecidableEq κ] {l l' : List ι} (f : ι → Touch)
    (owner : ι → κ)
    (howner : ∀ x ∈ l, ∀ y ∈ l, (f x).target = (f y).target → owner x = owner y)
    (h : ∀ k, l.filter (owner · = k) = l'.filter (owner · = k)) (b : Array α) :
    u.touchAll a (l.map f) b = u.touchAll a (l'.map f) b := by
  have hmem : ∀ x, x ∈ l ↔ x ∈ l' := by
    intro x
    have hx : x ∈ l.filter (owner · = owner x) ↔ x ∈ l'.filter (owner · = owner x) := by
      rw [h]
    simpa [List.mem_filter] using hx
  apply touchAll_congr
  intro i
  simp only [touchesOf, List.filter_map]
  congr 1
  by_cases hi : ∃ x ∈ l, (f x).target = i
  · -- All touches of the cell are steps of the owner of `x`, where the lists agree.
    obtain ⟨x, hx, rfl⟩ := hi
    have hk : ∀ m : List ι, (∀ y ∈ m, y ∈ l) →
        m.filter ((fun t : Touch => decide (t.target = (f x).target)) ∘ f) =
          (m.filter (owner · = owner x)).filter
            ((fun t : Touch => decide (t.target = (f x).target)) ∘ f) := by
      intro m hm
      rw [List.filter_filter]
      apply List.filter_congr
      intro y hy
      by_cases hyx : (f y).target = (f x).target
      · simp [hyx, howner y (hm y hy) x hx hyx]
      · simp [hyx]
    rw [hk l fun y hy => hy, hk l' fun y hy => (hmem y).mpr hy, h]
  · have hnil : ∀ m : List ι, (∀ y ∈ m, y ∈ l) →
        m.filter ((fun t : Touch => decide (t.target = i)) ∘ f) = [] := by
      intro m hm
      apply List.filter_eq_nil_iff.mpr
      intro y hy hyi
      exact hi ⟨y, hm y hy, by simpa using hyi⟩
    rw [hnil l fun y hy => hy, hnil l' fun y hy => (hmem y).mpr hy]

theorem touchAll_congr_source {a a' : Array α} {ts : List Touch}
    (h : ∀ t ∈ ts, a[t.source]? = a'[t.source]?) (b : Array α) :
    u.touchAll a ts b = u.touchAll a' ts b := by
  induction ts generalizing b with
  | nil => rfl
  | cons t ts ih =>
    have ht : u.touch a b t = u.touch a' b t := by
      unfold touch newValue
      rw [h t List.mem_cons_self]
    rw [touchAll_cons, touchAll_cons, ht, ih fun s hs => h s (List.mem_cons_of_mem t hs)]

theorem flatMap_eq_of_perm {ι κ : Type} {l l' : List ι} (hp : l.Perm l') {f : ι → List κ}
    (hf : ∀ i ∈ l, ∀ j ∈ l, f i ≠ [] → f j ≠ [] → i = j) : l.flatMap f = l'.flatMap f := by
  induction hp with
  | nil => rfl
  | @cons i l l' _ ih =>
    rw [List.flatMap_cons, List.flatMap_cons, ih]
    exact fun i hi j hj => hf i (List.mem_cons_of_mem _ hi) j (List.mem_cons_of_mem _ hj)
  | swap i j l =>
    rw [List.flatMap_cons, List.flatMap_cons, List.flatMap_cons, List.flatMap_cons]
    by_cases hi : f i = []
    · rw [hi, List.nil_append, List.nil_append]
    · by_cases hj : f j = []
      · rw [hj, List.nil_append, List.nil_append]
      · rw [hf i (by simp) j (by simp) hi hj]
  | trans hp _ ih ih' =>
    rw [ih hf]
    exact ih' fun i hi j hj => hf i (hp.mem_iff.mpr hi) j (hp.mem_iff.mpr hj)

/-- Groups of touches that share no target can be visited in any order. -/
theorem touchAll_flatMap_perm {ι : Type} {l l' : List ι} (hp : l.Perm l') {f : ι → List Touch}
    (hf : ∀ i ∈ l, ∀ j ∈ l, ∀ s ∈ f i, ∀ t ∈ f j, s.target = t.target → i = j)
    (b : Array α) : u.touchAll a (l.flatMap f) b = u.touchAll a (l'.flatMap f) b := by
  apply touchAll_congr
  intro k
  rw [touchesOf_flatMap, touchesOf_flatMap]
  apply flatMap_eq_of_perm hp
  intro i hi j hj hni hnj
  obtain ⟨s, hs⟩ := List.exists_mem_of_ne_nil _ hni
  obtain ⟨t, ht⟩ := List.exists_mem_of_ne_nil _ hnj
  obtain ⟨hs, hsk⟩ := List.mem_filter.mp hs
  obtain ⟨ht, htk⟩ := List.mem_filter.mp ht
  exact hf i hi j hj s hs t ht ((of_decide_eq_true hsk).trans (of_decide_eq_true htk).symm)

end Update

end BatchAxpby
