import BatchAxpby.Device.Lane
import BatchAxpby.Proofs.Engines

/-! # Lanes

A lane below the number of elements touches the cells of its element; every other lane is idle.
Running all lanes in order touches the cells of one element after the other. The bases of a
checked problem send lanes and slots to each other.
-/

namespace BatchAxpby

namespace Bases

def baseA (bases : Bases) (i : ℕ) : ℕ :=
  match bases with
  | strided firstA _ offsetA _ => firstA + i * offsetA
  | indirect tableA _ => (tableA.getD i 0).toNat

def baseB (bases : Bases) (i : ℕ) : ℕ :=
  match bases with
  | strided _ firstB _ offsetB => firstB + i * offsetB
  | indirect _ tableB => (tableB.getD i 0).toNat

def Lists (bases : Bases) (count : ℕ) : Prop :=
  match bases with
  | strided .. => True
  | indirect tableA tableB => count ≤ tableA.size ∧ count ≤ tableB.size

theorem resolve_eq_ok {bases : Bases} {count i : ℕ} (hl : bases.Lists count) (hi : i < count)
    (ha : bases.baseA i < Word.bound) (hb : bases.baseB i < Word.bound) :
    bases.resolve i = .ok (bases.baseA i, bases.baseB i) := by
  cases bases with
  | strided firstA firstB offsetA offsetB =>
    have ha : firstA + i * offsetA < Word.bound := ha
    have hb : firstB + i * offsetB < Word.bound := hb
    have hmulA := Word.mul_eq_ok_iff.mpr ⟨show i * offsetA < Word.bound by omega, rfl⟩
    have hmulB := Word.mul_eq_ok_iff.mpr ⟨show i * offsetB < Word.bound by omega, rfl⟩
    rw [resolve, hmulA, hmulB]
    change (do
      let a ← Word.add firstA (i * offsetA)
      let b ← Word.add firstB (i * offsetB)
      return (a, b)) = _
    rw [Word.add_eq_ok_iff.mpr ⟨ha, rfl⟩, Word.add_eq_ok_iff.mpr ⟨hb, rfl⟩]
    rfl
  | indirect tableA tableB =>
    obtain ⟨hla, hlb⟩ := hl
    have hia : i < tableA.size := by omega
    have hib : i < tableB.size := by omega
    rw [resolve, Array.getElem?_eq_getElem hia, Array.getElem?_eq_getElem hib]
    simp [baseA, baseB, hia, hib]

theorem table_go_eq_ok {first offset : ℕ} {n : ℕ} {acc t : Array UInt32}
    (h : table.go first offset n acc = .ok t) :
    (∀ s < n, first + s * offset < 4294967296) ∧
      t.toList = acc.toList ++
        (List.range n).reverse.map fun s => (first + s * offset).toUInt32 := by
  induction n generalizing acc with
  | zero =>
    cases h
    simp
  | succ n ih =>
    obtain ⟨x, hx, h⟩ := except_bind_eq_ok.mp h
    obtain ⟨_, rfl⟩ := Word.mul_eq_ok_iff.mp (liftFault_eq_ok.mp hx)
    obtain ⟨y, hy, h⟩ := except_bind_eq_ok.mp h
    obtain ⟨_, rfl⟩ := Word.add_eq_ok_iff.mp (liftFault_eq_ok.mp hy)
    split_ifs at h with hlt
    · obtain ⟨hs, ht⟩ := ih h
      refine ⟨fun s hs' => ?_, ?_⟩
      · rcases Nat.lt_succ_iff_lt_or_eq.mp hs' with hs' | rfl
        · exact hs s hs'
        · exact hlt
      · rw [ht, List.range_succ]
        simp

theorem table_eq_ok {first offset count : ℕ} {t : Array UInt32}
    (h : table first offset count = .ok t) :
    t.size = count ∧ ∀ i < count, (t.getD i 0).toNat = first + (count - 1 - i) * offset := by
  obtain ⟨hlt, ht⟩ := table_go_eq_ok h
  have hsize : t.size = count := by
    rw [← Array.length_toList, ht]
    simp
  refine ⟨hsize, fun i hi => ?_⟩
  have hget : t[i]? = some (first + (count - 1 - i) * offset).toUInt32 := by
    rw [← Array.getElem?_toList, ht]
    simp only [List.nil_append, List.getElem?_map]
    rw [List.getElem?_reverse (by simpa using hi), List.length_range,
      List.getElem?_range (by omega)]
    rfl
  rw [Array.getD_eq_getD_getElem?, hget]
  simp
  exact hlt _ (by omega)

theorem table_go_succ {first offset slot : ℕ} (h : first + slot * offset < Word.bound)
    (bases : Array UInt32) : table.go first offset (slot + 1) bases =
      if first + slot * offset < 4294967296 then
        table.go first offset slot (bases.push (first + slot * offset).toUInt32)
      else .error (.refused (.wideBase (first + slot * offset))) := by
  have hmul := Word.mul_eq_ok_iff.mpr ⟨show slot * offset < Word.bound by omega, rfl⟩
  rw [table.go, outcome_bind_of_fault_ok hmul,
    outcome_bind_of_fault_ok (Word.add_eq_ok_iff.mpr ⟨h, rfl⟩)]
  rfl

theorem table_go_of_narrow {first offset n : ℕ}
    (h : ∀ slot < n, first + slot * offset < 4294967296) (bases : Array UInt32) :
    ∃ t, table.go first offset n bases = .ok t := by
  induction n generalizing bases with
  | zero => exact ⟨bases, rfl⟩
  | succ slot ih =>
    have hslot := h slot (Nat.lt_succ_self slot)
    rw [table_go_succ (hslot.trans (by decide)), if_pos hslot]
    exact ih (fun s hs => h s (Nat.lt_succ_of_lt hs)) _

/-- Later slots have larger bases, so a table exists if the base of its last slot is narrow. -/
theorem table_of_narrow {first offset slot : ℕ} (h : first + slot * offset < 4294967296) :
    ∃ t, table first offset (slot + 1) = .ok t := by
  refine table_go_of_narrow (fun s hs => ?_) #[]
  have hle : s * offset ≤ slot * offset := Nat.mul_le_mul_right offset (Nat.le_of_lt_succ hs)
  omega

/-- The last slot comes first, so its base is the one that is refused. -/
theorem table_of_wide {first offset slot : ℕ} (h : first + slot * offset < Word.bound)
    (hwide : 4294967296 ≤ first + slot * offset) :
    table first offset (slot + 1) = .error (.refused (.wideBase (first + slot * offset))) := by
  rw [table, table_go_succ h, if_neg (Nat.not_lt.mpr hwide)]

theorem table_cases {first offset count : ℕ}
    (h : ∀ slot < count, first + slot * offset < Word.bound) :
    (∃ base, table first offset count = .error (.refused (.wideBase base))) ∨
      ∃ t, table first offset count = .ok t := by
  cases count with
  | zero => exact Or.inr ⟨#[], rfl⟩
  | succ slot =>
    rcases Nat.lt_or_ge (first + slot * offset) 4294967296 with hnarrow | hwide
    · exact Or.inr (table_of_narrow hnarrow)
    · exact Or.inl ⟨_, table_of_wide (h slot (Nat.lt_succ_self slot)) hwide⟩

end Bases

namespace Lane

theorem runAll_go_eq_ok {σ : Type} {body : ℕ → EStateM Fault σ Bool} {ran : ℕ → Bool}
    {effect : σ → ℕ → σ} (inv : σ → Prop)
    (h : ∀ lane s, inv s → body lane s = .ok (ran lane) (effect s lane) ∧ inv (effect s lane))
    (remaining lane active : ℕ) {s : σ} (hs : inv s) :
    runAll.go body remaining lane active s =
      .ok (active + (List.range' lane remaining).countP ran)
        ((List.range' lane remaining).foldl effect s) := by
  induction remaining generalizing lane active s with
  | zero => rfl
  | succ remaining ih =>
    obtain ⟨hbody, hinv⟩ := h lane s hs
    rw [runAll.go, hbody]
    simp only
    rw [ih _ _ hinv, List.range'_succ, List.foldl_cons, List.countP_cons]
    cases ran lane <;> simp [Nat.add_assoc, Nat.add_comm]

theorem runAll_eq_ok {σ : Type} {body : ℕ → EStateM Fault σ Bool} {ran : ℕ → Bool}
    {effect : σ → ℕ → σ} (inv : σ → Prop)
    (h : ∀ lane s, inv s → body lane s = .ok (ran lane) (effect s lane) ∧ inv (effect s lane))
    (lanes : ℕ) {s : σ} (hs : inv s) :
    runAll body lanes s =
      .ok ((List.range lanes).countP ran) ((List.range lanes).foldl effect s) := by
  rw [runAll, runAll_go_eq_ok inv h lanes 0 0 hs, List.range_eq_range', Nat.zero_add]

theorem runAll_go_preserves {σ : Type} {body : ℕ → EStateM Fault σ Bool} (ran : ℕ → Bool)
    (inv : σ → Prop)
    (h : ∀ lane s r t, inv s → body lane s = .ok r t → r = ran lane ∧ inv t)
    {remaining lane active total : ℕ} {s t : σ}
    (hrun : runAll.go body remaining lane active s = .ok total t) (hs : inv s) :
    total = active + (List.range' lane remaining).countP ran ∧ inv t := by
  induction remaining generalizing lane active s with
  | zero =>
    cases hrun
    exact ⟨rfl, hs⟩
  | succ remaining ih =>
    rw [runAll.go] at hrun
    cases hbody : body lane s with
    | error e t => simp [hbody] at hrun
    | ok r t =>
      simp only [hbody] at hrun
      obtain ⟨rfl, ht⟩ := h lane s r t hs hbody
      obtain ⟨rfl, hinv⟩ := ih hrun ht
      refine ⟨?_, hinv⟩
      rw [List.range'_succ, List.countP_cons]
      cases ran lane <;> simp [Nat.add_assoc, Nat.add_comm]

theorem runAll_preserves {σ : Type} {body : ℕ → EStateM Fault σ Bool} (ran : ℕ → Bool)
    (inv : σ → Prop)
    (h : ∀ lane s r t, inv s → body lane s = .ok r t → r = ran lane ∧ inv t)
    {lanes total : ℕ} {s t : σ} (hrun : runAll body lanes s = .ok total t) (hs : inv s) :
    total = (List.range lanes).countP ran ∧ inv t := by
  obtain ⟨htotal, ht⟩ := runAll_go_preserves ran inv h hrun hs
  rw [Nat.zero_add, ← List.range_eq_range'] at htotal
  exact ⟨htotal, ht⟩

theorem runAll_go_le {σ : Type} {body : ℕ → EStateM Fault σ Bool}
    {remaining lane active total : ℕ} {s t : σ}
    (h : runAll.go body remaining lane active s = .ok total t) : total ≤ active + remaining := by
  induction remaining generalizing lane active s with
  | zero =>
    cases h
    exact le_rfl
  | succ remaining ih =>
    rw [runAll.go] at h
    cases hbody : body lane s with
    | error e u => simp [hbody] at h
    | ok ran u =>
      simp only [hbody] at h
      have hrest := ih h
      have hran := Bool.toNat_le ran
      omega

theorem runAll_le {σ : Type} {body : ℕ → EStateM Fault σ Bool} {lanes total : ℕ} {s t : σ}
    (h : runAll body lanes s = .ok total t) : total ≤ lanes :=
  (runAll_go_le h).trans_eq (Nat.zero_add lanes)

theorem countP_range_lt (count lanes : ℕ) :
    (List.range lanes).countP (decide <| · < count) = min lanes count := by
  induction lanes with
  | zero => simp
  | succ lanes ih =>
    rw [List.range_succ, List.countP_append, ih, List.countP_singleton]
    split_ifs with h
    · have := of_decide_eq_true h
      omega
    · have : ¬ lanes < count := fun hlt => h (decide_eq_true hlt)
      omega

variable {α : Type}

theorem copy_eq_ok_imp {source target target' : Array α} {len lane : ℕ} {ran : Bool}
    (h : copy source len lane target = .ok ran target') :
    ran = decide (lane < len) ∧ target'.size = target.size := by
  unfold copy at h
  by_cases hlane : len ≤ lane
  · rw [if_pos hlane] at h
    cases h
    exact ⟨(decide_eq_false (Nat.not_lt.mpr hlane)).symm, rfl⟩
  · rw [if_neg hlane] at h
    cases hsource : source[lane]? with
    | none => simp [hsource] at h
    | some x =>
      simp only [hsource] at h
      split_ifs at h
      cases h
      exact ⟨(decide_eq_true (Nat.lt_of_not_le hlane)).symm, Array.size_set _⟩

theorem size_of_runAll_copy {source target target' : Array α} {len lanes active : ℕ}
    (h : runAll (copy source len) lanes target = .ok active target') :
    target'.size = target.size := by
  refine (runAll_preserves (fun lane => decide (lane < len)) (fun t => t.size = target.size)
    (fun lane s r t hs hbody => ?_) h rfl).2
  obtain ⟨hran, hsize⟩ := copy_eq_ok_imp hbody
  exact ⟨hran, hsize.trans hs⟩

variable [Scalar α]

theorem update_eq_ok_imp {args : UpdateArgs α} {a b b' : Array α} {lane : ℕ} {ran : Bool}
    (h : update args a lane b = .ok ran b') :
    ran = decide (lane < args.count) ∧ b'.size = b.size := by
  unfold update at h
  split_ifs at h with hlane
  · cases h
    exact ⟨(decide_eq_false (Nat.not_lt.mpr hlane)).symm, rfl⟩
  · extract_lets windows at h
    cases hw : windows with
    | error e => simp [hw] at h
    | ok w =>
      simp only [hw] at h
      cases happly : args.update.apply a w.1 w.2 b with
      | error e t => simp [happly] at h
      | ok v t =>
        simp only [happly] at h
        cases h
        exact ⟨(decide_eq_true (Nat.lt_of_not_le hlane)).symm, Update.size_of_apply_eq_ok happly⟩

theorem runAll_update {args : UpdateArgs α} {a b b' : Array α} {lanes active : ℕ}
    (h : runAll (update args a) lanes b = .ok active b') :
    active = min lanes args.count ∧ b'.size = b.size := by
  rw [← countP_range_lt]
  refine runAll_preserves _ (fun t => t.size = b.size) (fun lane s r t hs hbody => ?_) h rfl
  obtain ⟨hran, hsize⟩ := update_eq_ok_imp hbody
  exact ⟨hran, hsize.trans hs⟩

theorem size_of_runAll_roundTrip {magic : α} {repeats base lanes active : ℕ} {s t : Group α}
    (h : runAll (roundTrip magic repeats base) lanes s = .ok active t) :
    t.scratch.size = s.scratch.size := by
  refine (runAll_preserves
    (fun lane => decide (lane < s.shared.size ∧ base + lane < s.scratch.size))
    (fun t => t.shared.size = s.shared.size ∧ t.scratch.size = s.scratch.size)
    (fun lane u r v hu hbody => ?_) h ⟨rfl, rfl⟩).2.2
  unfold roundTrip at hbody
  rw [← hu.1, ← hu.2]
  split_ifs at hbody with hlane
  · cases hbody
    exact ⟨(decide_eq_true hlane).symm, Array.size_set hlane.1, Array.size_set hlane.2⟩
  · cases hbody
    exact ⟨(decide_eq_false hlane).symm, rfl, rfl⟩

end Lane

namespace UpdateArgs

variable {α : Type}

/-- Every lane below the number of elements finds its bases and has all its cells in range. -/
structure Fits (args : UpdateArgs α) (sizeA sizeB : ℕ) : Prop where
  rows_pos : 0 < args.update.rows
  cols_pos : 0 < args.update.cols
  lists : args.bases.Lists args.count
  insideA : ∀ lane < args.count, ∀ row < args.update.rows, ∀ col < args.update.cols,
    args.bases.baseA lane + (row + col * args.update.lda) < sizeA
  insideB : ∀ lane < args.count, ∀ row < args.update.rows, ∀ col < args.update.cols,
    args.bases.baseB lane + (row + col * args.update.ldb) < sizeB
  sizeA_lt : sizeA < Word.bound
  sizeB_lt : sizeB < Word.bound

/-- The touches of a lane. A lane past the last element is idle. -/
def touches (args : UpdateArgs α) (lane : ℕ) : List Touch :=
  if lane < args.count then
    args.update.touches (args.bases.baseA lane) (args.bases.baseB lane)
  else []

variable {args : UpdateArgs α} {sizeA sizeB lane : ℕ}

theorem Fits.baseA_lt (h : args.Fits sizeA sizeB) (hl : lane < args.count) :
    args.bases.baseA lane < sizeA := by
  simpa using h.insideA lane hl 0 h.rows_pos 0 h.cols_pos

theorem Fits.baseB_lt (h : args.Fits sizeA sizeB) (hl : lane < args.count) :
    args.bases.baseB lane < sizeB := by
  simpa using h.insideB lane hl 0 h.rows_pos 0 h.cols_pos

theorem flatMap_touches (args : UpdateArgs α) {lanes : ℕ} (hl : args.count ≤ lanes) :
    (List.range lanes).flatMap args.touches = (List.range args.count).flatMap fun lane =>
      args.update.touches (args.bases.baseA lane) (args.bases.baseB lane) := by
  obtain ⟨idle, rfl⟩ := Nat.exists_eq_add_of_le hl
  have hidle : ((List.range idle).map (args.count + ·)).flatMap args.touches = [] := by
    apply List.flatMap_eq_nil_iff.mpr
    intro lane hlane
    obtain ⟨k, -, rfl⟩ := List.mem_map.mp hlane
    exact if_neg (by omega)
  rw [List.range_add, List.flatMap_append, hidle, List.append_nil]
  exact List.flatMap_congr fun lane hlane => if_pos (List.mem_range.mp hlane)

variable [Scalar α] {a b : Array α}

theorem lane_eq_ok {out : Array α} {baseA baseB : ℕ} (hl : lane < args.count)
    (hres : args.bases.resolve lane = .ok (baseA, baseB)) (hA : baseA ≤ a.size)
    (hB : baseB ≤ b.size)
    (happly : args.update.apply a ⟨baseA, a.size - baseA⟩ ⟨baseB, b.size - baseB⟩ b =
      .ok () out) : Lane.update args a lane b = .ok true out := by
  unfold Lane.update
  rw [if_neg (by omega), hres]
  simp only [bind, Except.bind, pure, Except.pure, Window.tail_whole hA, Window.tail_whole hB,
    happly]

theorem lane_eq_idle (hl : ¬ lane < args.count) : Lane.update args a lane b = .ok false b :=
  if_pos (Nat.le_of_not_lt hl)

theorem Fits.update_eq_ok (h : args.Fits a.size b.size) (lane : ℕ) :
    Lane.update args a lane b =
      .ok (decide (lane < args.count)) (args.update.touchAll a (args.touches lane) b) := by
  unfold touches
  by_cases hl : lane < args.count
  · have hA := h.baseA_lt hl
    have hB := h.baseB_lt hl
    have hres := Bases.resolve_eq_ok h.lists hl (hA.trans h.sizeA_lt) (hB.trans h.sizeB_lt)
    have happly := Update.apply_eq_ok (u := args.update) (Window.within_tail_whole hA.le)
      (Window.within_tail_whole hB.le) h.sizeA_lt h.sizeB_lt
      (fun row hr col hc => Nat.lt_sub_iff_add_lt'.mpr (h.insideA lane hl row hr col hc))
      (fun row hr col hc => Nat.lt_sub_iff_add_lt'.mpr (h.insideB lane hl row hr col hc))
    rw [lane_eq_ok hl hres hA.le hB.le happly, if_pos hl, decide_eq_true hl]
  · rw [lane_eq_idle hl, if_neg hl, decide_eq_false hl]
    rfl

theorem Fits.runAll_eq_ok (h : args.Fits a.size b.size) (lanes : ℕ) :
    Lane.runAll (Lane.update args a) lanes b =
      .ok (min lanes args.count)
        (args.update.touchAll a ((List.range lanes).flatMap args.touches) b) := by
  rw [Lane.runAll_eq_ok (fun t => t.size = b.size) (fun lane t ht => ⟨?_, ?_⟩) lanes rfl,
    Lane.countP_range_lt, Update.touchAll_flatMap]
  · exact Fits.update_eq_ok (ht.symm ▸ h) lane
  · rw [Update.size_touchAll, ht]

end UpdateArgs

namespace Problem

variable {α : Type} {p : Problem α}

theorem bases_eq_ok {addressing : Addressing} {count : ℕ} {bases : Bases}
    (h : p.bases addressing count = .ok bases) : bases.Lists count ∧ ∀ i < count,
      bases.baseA i = p.firstA + addressing.slotOf count i * p.slotA ∧
      bases.baseB i = p.firstB + addressing.slotOf count i * p.slotB := by
  cases addressing with
  | strided =>
    cases h
    exact ⟨trivial, fun i _ => ⟨rfl, rfl⟩⟩
  | indirect =>
    obtain ⟨tableA, hA, h⟩ := except_bind_eq_ok.mp h
    obtain ⟨tableB, hB, h⟩ := except_bind_eq_ok.mp h
    cases h
    obtain ⟨hsizeA, hA⟩ := Bases.table_eq_ok hA
    obtain ⟨hsizeB, hB⟩ := Bases.table_eq_ok hB
    exact ⟨⟨hsizeA.ge, hsizeB.ge⟩, fun i hi => ⟨hA i hi, hB i hi⟩⟩

variable {a b : Array α} {count : ℕ}

theorem bases_cases (hltA : ∀ slot < count, p.firstA + slot * p.slotA < Word.bound)
    (hltB : ∀ slot < count, p.firstB + slot * p.slotB < Word.bound) (addressing : Addressing) :
    (∃ base, p.bases addressing count = .error (.refused (.wideBase base))) ∨
      ∃ bases, p.bases addressing count = .ok bases := by
  cases addressing with
  | strided => exact Or.inr ⟨_, rfl⟩
  | indirect =>
    unfold bases
    rcases Bases.table_cases hltA with ⟨base, hA⟩ | ⟨tableA, hA⟩
    · exact Or.inl ⟨base, except_bind_of_error hA _⟩
    · rcases Bases.table_cases hltB with ⟨base, hB⟩ | ⟨tableB, hB⟩
      · exact Or.inl ⟨base, (except_bind_of_ok hA _).trans (except_bind_of_error hB _)⟩
      · exact Or.inr ⟨_, (except_bind_of_ok hA _).trans (except_bind_of_ok hB _)⟩

theorem IsBatch.bases_cases (h : p.IsBatch a b count) (addressing : Addressing) :
    (∃ base, p.bases addressing count = .error (.refused (.wideBase base))) ∨
      ∃ bases, p.bases addressing count = .ok bases := by
  refine Problem.bases_cases (fun slot hs => ?_) (fun slot hs => ?_) addressing
  · have hend := block_end_le h.sound.fitsA hs
    have hlt := h.sizeA ▸ h.sizeA_lt
    omega
  · have hend := block_end_le h.sound.fitsB hs
    have hlt := h.sizeB ▸ h.sizeB_lt
    omega

theorem IsBatch.fits (h : p.IsBatch a b count) {addressing : Addressing} {bases : Bases}
    (hbases : p.bases addressing count = .ok bases) :
    UpdateArgs.Fits ⟨p.update, bases, count⟩ a.size b.size := by
  obtain ⟨hlists, hat⟩ := bases_eq_ok hbases
  refine ⟨h.sound.rows_pos, h.sound.cols_pos, hlists, ?_, ?_, h.sizeA_lt, h.sizeB_lt⟩
  · intro lane hl row hr col hc
    have hend := block_end_le h.sound.fitsA (addressing.slotOf_lt hl)
    rw [(hat lane hl).1, h.sizeA]
    exact lt_of_lt_of_le (Nat.add_lt_add_left (inside_of_span_le le_rfl row hr col hc) _) hend
  · intro lane hl row hr col hc
    have hend := block_end_le h.sound.fitsB (addressing.slotOf_lt hl)
    rw [(hat lane hl).2, h.sizeB]
    exact lt_of_lt_of_le (Nat.add_lt_add_left (inside_of_span_le le_rfl row hr col hc) _) hend

variable [Scalar α]

/-- Lanes that cover the batch update every slot. -/
theorem IsBatch.runAll_eq_ok (h : p.IsBatch a b count) {addressing : Addressing} {bases : Bases}
    (hbases : p.bases addressing count = .ok bases) {lanes : ℕ} (hl : count ≤ lanes) :
    Lane.runAll (Lane.update ⟨p.update, bases, count⟩ a) lanes b =
      .ok count (p.updated a count b) := by
  rw [(h.fits hbases).runAll_eq_ok, UpdateArgs.flatMap_touches _ hl, Nat.min_eq_right hl,
    ← touchAll_eq_updated h.sound.fitsB (addressing.map_slotOf_perm (List.Perm.refl _)),
    List.flatMap_map]
  congr 2
  exact List.flatMap_congr fun lane hlane => by
    obtain ⟨hA, hB⟩ := (bases_eq_ok hbases).2 lane (List.mem_range.mp hlane)
    rw [slotTouches, hA, hB]

/-- The reference, and lanes that cover the elements, update every slot of a buffer of `size`
values. -/
structure Computes (p : Problem α) (a : Array α) (size count : ℕ) : Prop where
  bases_cases : ∀ addressing,
    (∃ base, p.bases addressing count = .error (.refused (.wideBase base))) ∨
      ∃ bases, p.bases addressing count = .ok bases
  reference_eq_ok : ∀ t : Array α, t.size = size →
    p.reference a count t = .ok () (p.updated a count t)
  runAll_eq_ok : ∀ {addressing bases lanes}, p.bases addressing count = .ok bases → count ≤ lanes →
    ∀ t : Array α, t.size = size →
      Lane.runAll (Lane.update ⟨p.update, bases, count⟩ a) lanes t =
        .ok count (p.updated a count t)

theorem IsBatch.computes (h : p.IsBatch a b count) : p.Computes a b.size count where
  bases_cases := h.bases_cases
  reference_eq_ok _ ht := (h.of_size_eq ht).reference_eq_ok
  runAll_eq_ok hbases hl _ ht := (h.of_size_eq ht).runAll_eq_ok hbases hl

end Problem

end BatchAxpby
