/-!
# Histories

What has happened, the oldest first. A history grows at its end, so a place
in it stays where it is, and what came before that place stays the same.

## Main definitions

* `Last`: What had happened when something happened for the last time.

## Theorems

* `cut_of_snoc`: Where a history is cut after it has grown.
* `Last.snoc`, `Last.of_snoc`: The last time after it has grown.
-/

namespace Multidrop

namespace History

variable {α : Type}

/-- A place in a history that has grown by one is the new end or was a place
    in it already. -/
theorem cut_of_snoc {log before since : List α} {last mark : α}
    (h : log ++ [last] = before ++ mark :: since) :
    (since = [] ∧ last = mark ∧ log = before) ∨
      ∃ earlier, since = earlier ++ [last] ∧ log = before ++ mark :: earlier := by
  rcases List.eq_nil_or_concat since with hnil | ⟨earlier, final, hconcat⟩
  · rw [hnil] at h
    rcases List.append_inj' h rfl with ⟨hlog, hlast⟩
    exact Or.inl ⟨hnil, List.head_eq_of_cons_eq hlast, hlog⟩
  · rw [List.concat_eq_append] at hconcat
    rw [hconcat, ← List.cons_append, ← List.append_assoc] at h
    rcases List.append_inj' h rfl with ⟨hlog, hlast⟩
    rw [List.head_eq_of_cons_eq hlast]
    exact Or.inr ⟨earlier, hconcat, hlog⟩

/-- When `mark` happened last, `before` had happened. -/
def Last (mark : α) (log before : List α) : Prop :=
  ∃ since, log = before ++ mark :: since ∧ mark ∉ since

variable {log before : List α} {last mark : α}

theorem Last.here (mark : α) (log : List α) : Last mark (log ++ [mark]) log :=
  ⟨[], rfl, List.not_mem_nil⟩

/-- The last time stays the last time when something else happens. -/
theorem Last.snoc (h : Last mark log before) (hne : last ≠ mark) :
    Last mark (log ++ [last]) before := by
  rcases h with ⟨since, hlog, hlast⟩
  refine ⟨since ++ [last], ?_, ?_⟩
  · rw [hlog, List.append_assoc, List.cons_append]
  · intro hmem
    rcases List.mem_append.mp hmem with hsince | hmark
    · exact hlast hsince
    · exact hne (List.mem_singleton.mp hmark).symm

/-- The last time is now, or was the last time before. -/
theorem Last.of_snoc (h : Last mark (log ++ [last]) before) :
    (last = mark ∧ before = log) ∨ (last ≠ mark ∧ Last mark log before) := by
  rcases h with ⟨since, hlog, hlast⟩
  rcases cut_of_snoc hlog with ⟨_, hmark, hbefore⟩ | ⟨earlier, hsince, hbefore⟩
  · exact Or.inl ⟨hmark, hbefore.symm⟩
  · rw [hsince] at hlast
    refine Or.inr ⟨fun hmark => hlast ?_, earlier, hbefore, fun hmem => hlast ?_⟩
    · rw [hmark]
      exact List.mem_append_right _ (List.mem_singleton.mpr rfl)
    · exact List.mem_append_left _ hmem

end History

end Multidrop
