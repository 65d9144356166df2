import Multidrop.Proofs.Wire.Flow

/-!
# What Has Arrived

A call that does not wait can only get what is there already: the bytes of the
arrivals that are due, up to the first that is not due or that brings none.
These bytes are the backlog of a wire. How they are cut into arrivals does not
matter to it, and neither does what stands behind it.

Throwing away a number of bytes takes them from the backlog as long as there
are any. Where it comes to the end of the backlog it finds what stands there. A
fault is used up by that, and everything else stays.

## Main definitions

* `Arrivals.backlog`: The bytes that are there already.
* `Arrivals.beyond`: What stands behind them.
* `Arrivals.Breaks`: A fault stands there that is not taken for nothing.
* `Arrivals.cleared`: What is left when bytes are thrown away.

## Theorems

* `Arrivals.bytes_cleared`: What is thrown away is the front of the backlog.
* `Arrivals.cleared_fits`: All of the backlog is thrown away if there is room.
-/

namespace Multidrop

namespace Arrivals

/-- The bytes that are there already: those of the arrivals that are due, up to
    the first that is not due or brings none. -/
def backlog (now : Duration) : Arrivals → List UInt8
  | [] => []
  | (moment, arrival) :: later =>
    if now < moment then []
    else
      match arrival with
      | .data first more => first :: more ++ backlog now later
      | .ended => []
      | .fault _ => []

/-- What stands behind the backlog. -/
def beyond (now : Duration) : Arrivals → Arrivals
  | [] => []
  | (moment, arrival) :: later =>
    if now < moment then (moment, arrival) :: later
    else
      match arrival with
      | .data _ _ => beyond now later
      | .ended => (moment, .ended) :: later
      | .fault cause => (moment, .fault cause) :: later

/-- A fault stands in front that is not taken for nothing being there. -/
def Breaks (now : Duration) (script : Arrivals) : Prop :=
  ∃ moment cause later, script = (moment, .fault cause) :: later ∧ ¬ now < moment ∧
    ¬ (cause.kind = .wouldBlock ∨ cause.kind = .interrupted)

/-- What is left when up to `window` bytes of the backlog are thrown away. Who
    comes to its end uses up a fault that stands there. -/
def cleared (now : Duration) : Nat → Arrivals → Arrivals
  | _, [] => []
  | window, (moment, arrival) :: later =>
    if window = 0 ∨ now < moment then (moment, arrival) :: later
    else
      match arrival with
      | .data first more =>
        match (first :: more).drop window with
        | [] => cleared now (window - (more.length + 1)) later
        | next :: left => (moment, .data next left) :: later
      | .ended => (moment, .ended) :: later
      | .fault _ => later

variable {now moment : Duration} {first : UInt8} {more : List UInt8} {script later : Arrivals}
  {window : Nat}

theorem backlog_early {arrival : Arrival} (h : now < moment) :
    backlog now ((moment, arrival) :: later) = [] := by
  rw [backlog.eq_def]
  exact if_pos h

theorem cleared_early {arrival : Arrival} (h : now < moment) :
    cleared now window ((moment, arrival) :: later) = (moment, arrival) :: later := by
  rw [cleared.eq_def]
  exact if_pos (Or.inr h)

theorem backlog_data (h : ¬ now < moment) :
    backlog now ((moment, .data first more) :: later) = first :: more ++ backlog now later := by
  rw [backlog, if_neg h]

theorem beyond_early {arrival : Arrival} (h : now < moment) :
    beyond now ((moment, arrival) :: later) = (moment, arrival) :: later := by
  rw [beyond.eq_def]
  exact if_pos h

theorem beyond_data (h : ¬ now < moment) :
    beyond now ((moment, .data first more) :: later) = beyond now later := by
  rw [beyond, if_neg h]

/-- What is due is thrown away as far as the window goes. -/
theorem cleared_due {arrival : Arrival} (hwindow : window ≠ 0) (h : ¬ now < moment) :
    cleared now window ((moment, arrival) :: later) =
      match arrival with
      | .data first more =>
        match (first :: more).drop window with
        | [] => cleared now (window - (more.length + 1)) later
        | next :: left => (moment, .data next left) :: later
      | .ended => (moment, .ended) :: later
      | .fault _ => later := by
  rw [cleared.eq_def]
  exact if_neg (not_or.mpr ⟨hwindow, h⟩)

theorem cleared_zero (now : Duration) (script : Arrivals) : cleared now 0 script = script := by
  cases script with
  | nil => rfl
  | cons entry later =>
      rw [cleared.eq_def]
      exact if_pos (Or.inl rfl)

/-- An arrival that is thrown away whole leaves room for what follows it. -/
theorem cleared_whole (h : ¬ now < moment) (hwindow : more.length + 1 ≤ window) :
    cleared now window ((moment, .data first more) :: later) =
      cleared now (window - (more.length + 1)) later := by
  have hdrop : (first :: more).drop window = [] := List.drop_eq_nil_iff.mpr hwindow
  rw [cleared_due (by omega) h]
  simp only [hdrop]

/-- An arrival that is thrown away in part can be thrown away in two steps. -/
theorem cleared_part {next : UInt8} {left : List UInt8} {count : Nat} (h : ¬ now < moment)
    (hpos : 0 < count) (hcount : count ≤ window)
    (hdrop : (first :: more).drop count = next :: left) :
    cleared now window ((moment, .data first more) :: later) =
      cleared now (window - count) ((moment, .data next left) :: later) := by
  have hrest : (next :: left).drop (window - count) = (first :: more).drop window := by
    rw [← hdrop, List.drop_drop, Nat.add_sub_cancel' hcount]
  have hlength := congrArg List.length hdrop
  rw [List.length_drop, List.length_cons, List.length_cons] at hlength
  rw [cleared_due (by omega) h]
  by_cases hnone : window - count = 0
  · rw [hnone, List.drop_zero] at hrest
    rw [hnone, cleared_zero]
    simp only [← hrest]
  · rw [cleared_due hnone h]
    simp only [hrest]
    -- What is missing of the window behind the arrival is the same both ways.
    have hroom : window - count - (left.length + 1) = window - (more.length + 1) := by omega
    rw [hroom]

/-- What is thrown away is the front of the backlog, which is the front of what
    is to be read. -/
theorem bytes_cleared (now : Duration) (window : Nat) (script : Arrivals) :
    script.bytes = (script.backlog now).take window ++ (script.cleared now window).bytes := by
  induction script generalizing window with
  | nil => rw [backlog, List.take_nil, cleared, List.nil_append]
  | cons entry later ih =>
      rcases entry with ⟨moment, arrival⟩
      by_cases hearly : now < moment
      · rw [backlog_early hearly, cleared_early hearly, List.take_nil, List.nil_append]
      by_cases hnone : window = 0
      · rw [hnone, cleared_zero, List.take_zero, List.nil_append]
      · cases arrival with
        | data first more =>
            rw [backlog_data hearly, bytes_cons]
            by_cases hfits : more.length + 1 ≤ window
            · rw [cleared_whole hearly hfits, List.take_append, List.length_cons,
                List.take_of_length_le hfits, List.append_assoc, ← ih]
              rfl
            · -- The window ends within the arrival.
              have hshort : window ≤ (first :: more).length := by
                rw [List.length_cons]
                omega
              rw [List.take_append_of_le_length hshort, cleared_due hnone hearly]
              rcases hdrop : (first :: more).drop window with _ | ⟨next, left⟩
              · have hle := List.drop_eq_nil_iff.mp hdrop
                rw [List.length_cons] at hle
                omega
              · simp only [hdrop, bytes_cons, Arrival.bytes]
                rw [← List.append_assoc, ← hdrop, List.take_append_drop]
        -- The stream ends here, or a read fails: no byte stands in front of that.
        | ended =>
            rw [backlog, if_neg hearly, cleared_due hnone hearly, List.take_nil,
              List.nil_append]
        | fault cause =>
            rw [backlog, if_neg hearly, cleared_due hnone hearly, List.take_nil,
              List.nil_append, bytes_cons]
            rfl

/-- Where the backlog fits into the window, what is left is what stands behind
    it, but for a fault that was used up. -/
theorem cleared_fits (h : (script.backlog now).length ≤ window) :
    script.cleared now window = script.beyond now ∨
      ∃ moment cause,
        script.beyond now = (moment, .fault cause) :: script.cleared now window := by
  induction script generalizing window with
  | nil => exact Or.inl rfl
  | cons entry later ih =>
      rcases entry with ⟨moment, arrival⟩
      by_cases hearly : now < moment
      · rw [cleared_early hearly, beyond_early hearly]
        exact Or.inl rfl
      · cases arrival with
        | data first more =>
            rw [backlog_data hearly, List.length_append, List.length_cons] at h
            rw [cleared_whole hearly (by omega), beyond_data hearly]
            exact ih (by omega)
        | ended =>
            rw [cleared, beyond, if_neg hearly]
            split
            · exact Or.inl rfl
            · exact Or.inl rfl
        -- A window that is left takes the fault with it, and an empty one does not.
        | fault cause =>
            rw [cleared, beyond, if_neg hearly]
            split
            · exact Or.inl rfl
            · exact Or.inr ⟨moment, cause, rfl⟩

/-- Where the backlog fits into the window, the bytes that are left are those
    behind it, and a stream that flows there goes on flowing. -/
theorem bytes_cleared_fits (h : (script.backlog now).length ≤ window) :
    (script.cleared now window).bytes = (script.beyond now).bytes ∧
      ((script.beyond now).Flow → (script.cleared now window).Flow) := by
  rcases cleared_fits h with hsame | ⟨moment, cause, hfault⟩
  · rw [hsame]
    exact ⟨rfl, id⟩
  · rw [hfault, bytes_cons]
    exact ⟨rfl, fun hflow entry hentry => hflow entry (List.mem_cons_of_mem _ hentry)⟩

/-- A stream that flows does not break. -/
theorem Flow.not_breaks (h : script.Flow) : ¬ script.Breaks now := by
  rintro ⟨moment, cause, later, hscript, _, hkind⟩
  rw [hscript] at h
  exact hkind (Or.inr (h _ List.mem_cons_self))

end Arrivals

end Multidrop
