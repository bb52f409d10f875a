import Mathlib.Data.List.Basic
import Mathlib.Data.List.Nodup
import Mathlib.Tactic.Common

/-!
# Tables with a primary key

What an SQL statement does to one table, the rows in the order they were put in. A table is
what its primary key allows if no two rows agree on it, and every statement leaves it so.
What a statement does to the row under a key is an equation of its own, the others come from
there.
-/

namespace OtamanBridge

namespace Sql

variable {ρ κ : Type*}

/-! ### Statements -/

/-- No two rows have the same primary key. -/
def Unique (key : ρ → κ) (table : List ρ) : Prop := (table.map key).Nodup

/-- `SELECT ... WHERE key = ?`. -/
def select [DecidableEq κ] (key : ρ → κ) (table : List ρ) (k : κ) : Option ρ :=
  table.find? fun row => key row = k

/-- `INSERT OR REPLACE`: the row that is in its way goes first. -/
def insertOrReplace [DecidableEq κ] (key : ρ → κ) (table : List ρ) (row : ρ) : List ρ :=
  table.filter (fun r => key r ≠ key row) ++ [row]

/-- `DELETE ... WHERE`: the table after it, and `rowcount`. -/
def delete (p : ρ → Bool) (table : List ρ) : List ρ × ℕ :=
  (table.filter fun row => !p row, table.countP p)

/-- `UPDATE ... SET ... WHERE`: the table after it, and `rowcount`. -/
def update (p : ρ → Bool) (f : ρ → ρ) (table : List ρ) : List ρ × ℕ :=
  (table.map fun row => if p row then f row else row, table.countP p)

variable {key : ρ → κ} {table : List ρ} {row : ρ} {k : κ} {p : ρ → Bool} {f : ρ → ρ}

/-! ### The primary key is kept -/

theorem Unique.insertOrReplace [DecidableEq κ] (h : Unique key table) (row : ρ) :
    Unique key (insertOrReplace key table row) := by
  rw [Unique, Sql.insertOrReplace, List.map_append, List.nodup_append]
  refine ⟨h.sublist (List.filter_sublist.map key), List.nodup_singleton _, ?_⟩
  rintro a ha b hb rfl
  obtain ⟨r, hr, rfl⟩ := List.mem_map.mp ha
  exact (of_decide_eq_true (List.mem_filter.mp hr).2) (List.mem_singleton.mp hb)

theorem Unique.delete (h : Unique key table) (p : ρ → Bool) : Unique key (delete p table).1 :=
  h.sublist (List.filter_sublist.map key)

theorem Unique.update (h : Unique key table) (p : ρ → Bool) (hf : ∀ row, key (f row) = key row) :
    Unique key (update p f table).1 := by
  have hkeys : (Sql.update p f table).1.map key = table.map key := by
    rw [Sql.update, List.map_map]
    refine List.map_congr_left fun row _ => ?_
    show key (if p row then f row else row) = key row
    split_ifs
    · exact hf row
    · rfl
  rw [Unique, hkeys]
  exact h

/-! ### The row under a key -/

section Select

variable [DecidableEq κ]

theorem select_mem (h : select key table k = some row) : row ∈ table ∧ key row = k :=
  ⟨List.mem_of_find?_eq_some h, by simpa using List.find?_some h⟩

/-- A row is the one under its key. -/
theorem select_of_mem (h : Unique key table) (hrow : row ∈ table) :
    select key table (key row) = some row := by
  induction table with
  | nil => exact absurd hrow List.not_mem_nil
  | cons r table ih =>
    obtain ⟨hnot, htail⟩ := List.nodup_cons.mp h
    rw [select, List.find?_cons]
    rcases List.mem_cons.mp hrow with rfl | hrow
    · simp
    · have hne : key r ≠ key row := by
        rintro heq
        exact hnot (heq ▸ List.mem_map_of_mem hrow)
      simp only [hne, decide_false]
      exact ih htail hrow

theorem select_filter (h : Unique key table) (q : ρ → Bool) (k : κ) :
    select key (table.filter q) k = (select key table k).filter q := by
  induction table with
  | nil => rfl
  | cons r table ih =>
    obtain ⟨hnot, htail⟩ := List.nodup_cons.mp h
    have hih := ih htail
    simp only [select] at hih ⊢
    by_cases hk : key r = k
    · have hgone : (table.find? fun row => key row = k) = none := by
        refine List.find?_eq_none.mpr fun row hrow heq => hnot ?_
        rw [hk, ← of_decide_eq_true heq]
        exact List.mem_map_of_mem hrow
      rw [hgone, Option.filter_none] at hih
      by_cases hq : q r
      · simp [hq, hk, Option.filter_some]
      · rw [List.filter_cons_of_neg hq, hih]
        simp [hq, hk, Option.filter_some]
    · by_cases hq : q r
      · simp [hq, hk, hih]
      · simp [hq, hk, hih]

/-- **A row that is put in** is under its key, and nothing else has changed. -/
theorem select_insertOrReplace (h : Unique key table) (row : ρ) (k : κ) :
    select key (insertOrReplace key table row) k =
      if k = key row then some row else select key table k := by
  have hold := select_filter h (fun r => key r ≠ key row) k
  rw [select] at hold
  rw [select, Sql.insertOrReplace, List.find?_append, hold]
  rcases hfound : select key table k with _ | r
  · by_cases hk : k = key row
    · simp [hk]
    · simp [hk, Ne.symm hk]
  · obtain rfl := (select_mem hfound).2
    by_cases hk : key r = key row
    · simp [hk, Option.filter_some]
    · simp [hk, Option.filter_some]

/-- **A row that is deleted** is gone, and any other stays under its key. -/
theorem select_delete (h : Unique key table) (p : ρ → Bool) (k : κ) :
    select key (delete p table).1 k = (select key table k).filter fun row => !p row :=
  select_filter h _ k

/-- **A row that is updated** stays under its key, and any other stays as it is. -/
theorem select_update (hf : ∀ row, key (f row) = key row) (p : ρ → Bool) (k : κ) :
    select key (update p f table).1 k =
      (select key table k).map fun row => if p row then f row else row := by
  have hkey : ∀ row, key (if p row then f row else row) = key row := by
    intro row
    split_ifs
    · exact hf row
    · rfl
  simp only [select, Sql.update, List.find?_map, Function.comp_def, hkey]

end Select

/-! ### Statements that find nothing -/

/-- A `DELETE` that finds no row leaves the table as it is. -/
theorem delete_eq_self (h : (delete p table).2 = 0) : (delete p table).1 = table := by
  refine List.filter_eq_self.mpr fun row hrow => ?_
  simpa using List.countP_eq_zero.mp h row hrow

/-- So does an `UPDATE`. -/
theorem update_eq_self (h : (update p f table).2 = 0) : (update p f table).1 = table := by
  refine (List.map_congr_left fun row hrow => ?_).trans (List.map_id table)
  exact if_neg (List.countP_eq_zero.mp h row hrow)

end Sql

end OtamanBridge
