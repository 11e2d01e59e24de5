import BatchAxpby.Proofs.Lanes

/-! # Index tables

The tables of a problem list its slots from the last to the first. They exist exactly if the bases
of the last slot fit 32 bits, since no other slot has larger ones, and otherwise it is this base
that is refused. Element `i` of the tables is the element at fixed distances that comes `i` places
before the last.
-/

namespace BatchAxpby

namespace Bases

def lastBase (first offset count : ℕ) : ℕ := first + (count - 1) * offset

variable {first offset count : ℕ}

theorem base_le_lastBase {slot : ℕ} (h : slot < count) :
    first + slot * offset ≤ lastBase first offset count :=
  Nat.add_le_add_left (Nat.mul_le_mul_right offset (Nat.le_sub_one_of_lt h)) first

theorem exists_table (hcount : 0 < count) (h : lastBase first offset count ≤ 4294967295) :
    ∃ t, table first offset count = .ok t := by
  obtain ⟨slot, rfl⟩ : ∃ slot, count = slot + 1 := ⟨count - 1, by omega⟩
  exact table_of_narrow (Nat.lt_succ_of_le h)

theorem table_refused (hcount : 0 < count) (hlt : lastBase first offset count < Word.bound)
    (h : 4294967295 < lastBase first offset count) :
    table first offset count = .error (.refused (.wideBase (lastBase first offset count))) := by
  obtain ⟨slot, rfl⟩ : ∃ slot, count = slot + 1 := ⟨count - 1, by omega⟩
  exact table_of_wide hlt h

end Bases

namespace Problem

open Bases

variable {α : Type} {p : Problem α} {count : ℕ}

theorem bases_of_tables {tableA tableB : Array UInt32}
    (hA : table p.firstA p.slotA count = .ok tableA)
    (hB : table p.firstB p.slotB count = .ok tableB) :
    p.bases .indirect count = .ok (.indirect tableA tableB) :=
  (except_bind_of_ok hA _).trans (except_bind_of_ok hB _)

section Words

variable (hltA : 0 < count → lastBase p.firstA p.slotA count < Word.bound)
  (hltB : 0 < count → lastBase p.firstB p.slotB count < Word.bound)

include hltA in
theorem bases_of_wideA (hcount : 0 < count)
    (hwide : 4294967295 < lastBase p.firstA p.slotA count) : p.bases .indirect count =
      .error (.refused (.wideBase (lastBase p.firstA p.slotA count))) :=
  except_bind_of_error (table_refused hcount (hltA hcount) hwide) _

include hltB in
theorem bases_of_wideB (hcount : 0 < count)
    (hnarrow : lastBase p.firstA p.slotA count ≤ 4294967295)
    (hwide : 4294967295 < lastBase p.firstB p.slotB count) : p.bases .indirect count =
      .error (.refused (.wideBase (lastBase p.firstB p.slotB count))) := by
  obtain ⟨tableA, hA⟩ := exists_table hcount hnarrow
  exact (except_bind_of_ok hA _).trans
    (except_bind_of_error (table_refused hcount (hltB hcount) hwide) _)

theorem bases_of_narrow (h : count = 0 ∨ lastBase p.firstA p.slotA count ≤ 4294967295 ∧
      lastBase p.firstB p.slotB count ≤ 4294967295) :
    ∃ tables, p.bases .indirect count = .ok tables := by
  rcases Nat.eq_zero_or_pos count with rfl | hcount
  · exact ⟨_, bases_of_tables rfl rfl⟩
  · obtain ⟨hnarrowA, hnarrowB⟩ := h.resolve_left (by omega)
    obtain ⟨tableA, hA⟩ := exists_table hcount hnarrowA
    obtain ⟨tableB, hB⟩ := exists_table hcount hnarrowB
    exact ⟨_, bases_of_tables hA hB⟩

include hltA hltB

theorem exists_tables_iff : (∃ tables, p.bases .indirect count = .ok tables) ↔
    count = 0 ∨ lastBase p.firstA p.slotA count ≤ 4294967295 ∧
      lastBase p.firstB p.slotB count ≤ 4294967295 := by
  refine ⟨?_, bases_of_narrow⟩
  rintro ⟨tables, h⟩
  by_contra hn
  obtain ⟨hzero, hnarrow⟩ := not_or.mp hn
  have hcount := Nat.pos_of_ne_zero hzero
  rcases Nat.lt_or_ge 4294967295 (lastBase p.firstA p.slotA count) with hA | hA
  · rw [bases_of_wideA hltA hcount hA] at h
    exact nomatch h
  · rw [bases_of_wideB hltB hcount hA (Nat.lt_of_not_le fun hB => hnarrow ⟨hA, hB⟩)] at h
    exact nomatch h

theorem resolve_bases {addressing : Addressing} {bases : Bases}
    (h : p.bases addressing count = .ok bases) {i : ℕ} (hi : i < count) :
    bases.resolve i = .ok (p.firstA + addressing.slotOf count i * p.slotA,
      p.firstB + addressing.slotOf count i * p.slotB) := by
  obtain ⟨hlists, hat⟩ := bases_eq_ok h
  obtain ⟨hA, hB⟩ := hat i hi
  have hslot := addressing.slotOf_lt hi
  have hcount : 0 < count := by omega
  rw [resolve_eq_ok hlists hi, hA, hB]
  · rw [hA]
    exact (base_le_lastBase hslot).trans_lt (hltA hcount)
  · rw [hB]
    exact (base_le_lastBase hslot).trans_lt (hltB hcount)

end Words

/-- Tables exist exactly if the last slot has bases of 32 bits on both sides; otherwise the base of
the last slot is refused, that of `A` before that of `B`. Tables have one entry for each slot, and
look up the elements that lie at fixed distances in reverse order. -/
theorem tables_exact_or_refused (p : Problem α) {count : ℕ}
    (hltA : 0 < count → lastBase p.firstA p.slotA count < Word.bound)
    (hltB : 0 < count → lastBase p.firstB p.slotB count < Word.bound) :
    ((∃ tables, p.bases .indirect count = .ok tables) ↔
      count = 0 ∨ lastBase p.firstA p.slotA count ≤ 4294967295 ∧
        lastBase p.firstB p.slotB count ≤ 4294967295) ∧
    (0 < count → 4294967295 < lastBase p.firstA p.slotA count →
      p.bases .indirect count =
        .error (.refused (.wideBase (lastBase p.firstA p.slotA count)))) ∧
    (0 < count → lastBase p.firstA p.slotA count ≤ 4294967295 →
      4294967295 < lastBase p.firstB p.slotB count →
      p.bases .indirect count =
        .error (.refused (.wideBase (lastBase p.firstB p.slotB count)))) ∧
    ∀ tables, p.bases .indirect count = .ok tables →
      ∃ tableA tableB strided, tables = .indirect tableA tableB ∧
        tableA.size = count ∧ tableB.size = count ∧ p.bases .strided count = .ok strided ∧
        (∀ i < count, tables.resolve i = strided.resolve (count - 1 - i) ∧
          strided.resolve (count - 1 - i) = .ok (p.firstA + (count - 1 - i) * p.slotA,
            p.firstB + (count - 1 - i) * p.slotB)) ∧
        (List.range count).map tables.resolve =
          ((List.range count).map strided.resolve).reverse := by
  refine ⟨exists_tables_iff hltA hltB, bases_of_wideA hltA, bases_of_wideB hltB, ?_⟩
  intro tables h
  obtain ⟨tableA, hA, hrest⟩ := except_bind_eq_ok.mp h
  obtain ⟨tableB, hB, htables⟩ := except_bind_eq_ok.mp hrest
  let strided : Bases := .strided p.firstA p.firstB p.slotA p.slotB
  have hstrided : p.bases .strided count = .ok strided := rfl
  have hslot : ∀ i < count, strided.resolve (count - 1 - i) =
      .ok (p.firstA + (count - 1 - i) * p.slotA, p.firstB + (count - 1 - i) * p.slotB) :=
    fun i hi => resolve_bases hltA hltB hstrided (by omega)
  have hresolve : ∀ i < count, tables.resolve i = strided.resolve (count - 1 - i) := fun i hi =>
    (resolve_bases hltA hltB h hi).trans (hslot i hi).symm
  refine ⟨tableA, tableB, strided, (Except.ok.inj htables).symm, (table_eq_ok hA).1,
    (table_eq_ok hB).1, hstrided, fun i hi => ⟨hresolve i hi, hslot i hi⟩, ?_⟩
  apply List.ext_getElem
  · simp
  · intro i hi _
    have hi : i < count := by simpa using hi
    simp [List.getElem_reverse, hresolve i hi]

/-- Slots of `B` that are so far apart that only three of them have bases of 32 bits. -/
def wideSlots : Problem Float32 where
  update := ⟨2, 2, 2, 3, 2, 3, .plain, .plain⟩
  slotA := 4
  slotB := 2147483647
  firstA := 0
  firstB := 1

/-- A table of three slots starts with the largest base of 32 bits; a fourth slot is refused. -/
theorem wideSlots_tables :
    (∃ tables, wideSlots.bases .indirect 3 = .ok tables ∧
      tables.resolve 0 = .ok (8, 4294967295)) ∧
    wideSlots.bases .indirect 4 = .error (.refused (.wideBase 6442450942)) := by
  constructor
  · obtain ⟨hexists, -, -, hexact⟩ :=
      tables_exact_or_refused wideSlots (fun _ : 0 < 3 => by decide) fun _ => by decide
    obtain ⟨tables, htables⟩ := hexists.mpr (.inr (by decide))
    obtain ⟨_, _, _, -, -, -, -, hresolve, -⟩ := hexact tables htables
    obtain ⟨hsame, hslot⟩ := hresolve 0 (by decide)
    exact ⟨tables, htables, hsame.trans hslot⟩
  · obtain ⟨-, -, hwide, -⟩ :=
      tables_exact_or_refused wideSlots (fun _ : 0 < 4 => by decide) fun _ => by decide
    exact hwide (by decide) (by decide) (by decide)

end Problem

end BatchAxpby
