import Multidrop.Register.Value

/-!
# Register Tables

What a device reported for each register: a value, or the code of an error.
The registers are kept in ascending order and none is kept twice, so two
tables that agree on every register are equal, and listing a table needs no
sorting.

## Main definitions

* `Entry`: What was reported for one register.
* `Table`: The entries of a reply.
* `Table.insert`: Report a register, replacing what was reported before.
* `Table.get?`: What was reported for a register.

## Theorems

* `mem_insertRow`: The rows after an insertion.
* `sorted_insertRow`: Insertion keeps the order.
-/

namespace Multidrop

namespace Register

/-- What was reported for one register. -/
inductive Entry where
  | value (value : Value)
  /-- A code of the device's own. -/
  | error (code : UInt32)
  deriving DecidableEq

/-- A row of a table. -/
abbrev Row := UInt32 × Entry

/-- Put a row in its place, over the row of the same register. -/
def insertRow (row : Row) : List Row → List Row
  | [] => [row]
  | first :: rest =>
    if row.1 < first.1 then row :: first :: rest
    else if row.1 = first.1 then row :: rest
    else first :: insertRow row rest

theorem mem_insertRow {row x : Row} {rows : List Row} (h : x ∈ insertRow row rows) :
    x = row ∨ x ∈ rows := by
  induction rows with
  | nil => exact Or.inl (by simpa only [insertRow, List.mem_singleton] using h)
  | cons first rest ih =>
      simp only [insertRow] at h
      split at h
      · simpa only [List.mem_cons] using h
      · split at h
        · rcases List.mem_cons.mp h with hx | hx
          · exact Or.inl hx
          · exact Or.inr (List.mem_cons_of_mem _ hx)
        · rcases List.mem_cons.mp h with hx | hx
          · exact Or.inr (by simp only [hx, List.mem_cons, true_or])
          · rcases ih hx with hx' | hx'
            · exact Or.inl hx'
            · exact Or.inr (List.mem_cons_of_mem _ hx')

/-- Insertion keeps the registers in ascending order. -/
theorem sorted_insertRow {row : Row} {rows : List Row}
    (h : rows.Pairwise fun a b => a.1 < b.1) :
    (insertRow row rows).Pairwise fun a b => a.1 < b.1 := by
  induction rows with
  | nil => simp only [insertRow, List.pairwise_singleton]
  | cons first rest ih =>
      rcases List.pairwise_cons.mp h with ⟨hfirst, hrest⟩
      simp only [insertRow]
      split
      · -- In front of the first row, in its place, or further behind.
        rename_i hlt
        refine List.pairwise_cons.mpr ⟨fun x hx => ?_, h⟩
        rcases List.mem_cons.mp hx with rfl | hx
        · exact hlt
        · exact UInt32.lt_trans hlt (hfirst x hx)
      · split
        · rename_i heq
          exact List.pairwise_cons.mpr ⟨fun x hx => heq ▸ hfirst x hx, hrest⟩
        · rename_i hnlt hne
          refine List.pairwise_cons.mpr ⟨fun x hx => ?_, ih hrest⟩
          rcases mem_insertRow hx with rfl | hx
          · exact UInt32.lt_of_le_of_ne (UInt32.not_lt.mp hnlt) (fun he => hne he.symm)
          · exact hfirst x hx

/-- The entries of a reply, by register. -/
structure Table where
  rows : List Row := []
  sorted : rows.Pairwise (fun a b => a.1 < b.1) := by exact List.Pairwise.nil

namespace Table

instance : DecidableEq Table := fun a b =>
  match a, b with
  | ⟨rows, _⟩, ⟨rows', _⟩ =>
    if h : rows = rows' then isTrue (by subst h; rfl)
    else isFalse fun he => h (congrArg Table.rows he)

/-- Nothing reported. -/
def empty : Table := {}

/-- Report a register. What was reported for it before is forgotten. -/
def insert (t : Table) (register : UInt32) (entry : Entry) : Table where
  rows := insertRow (register, entry) t.rows
  sorted := sorted_insertRow t.sorted

/-- Report registers one after another. -/
def insertAll (t : Table) (rows : List Row) : Table :=
  rows.foldl (fun t row => t.insert row.1 row.2) t

/-- What was reported for a register. -/
def get? (t : Table) (register : UInt32) : Option Entry :=
  (t.rows.find? (·.1 == register)).map (·.2)

/-- The value reported for a register, if it was no error. -/
def value? (t : Table) (register : UInt32) : Option Value :=
  match t.get? register with
  | some (.value v) => some v
  | _ => none

/-- How many registers were reported. -/
def size (t : Table) : Nat :=
  t.rows.length

end Table

end Register

end Multidrop
