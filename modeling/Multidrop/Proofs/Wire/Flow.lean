import Multidrop.Wire

/-!
# Streams That Flow

What is still to be read from a wire are the bytes of its arrivals, however
they are cut. A stream flows as long as it neither ends nor breaks: apart from
bytes there are only calls that are interrupted, which are made again.

Whatever is on a wire, a read takes from the front of what is to come, and no
more than it wants. On a stream that flows it waits for an arrival that is not
due, is interrupted, or takes some bytes. `Reads` lists the three, and `Gives`
says what the last two leave: what was taken and what is left are what there
was.

How often such a stream can be read before it has to be waited for is bounded
by its bytes and its arrivals. So a reader that goes on reading gets all that
is due.

## Main definitions

* `Arrivals.bytes`: What is still to be read.
* `Arrivals.Flow`: The stream neither ends nor breaks.
* `Arrivals.Due`: Nothing has to be waited for.
* `Arrivals.reads`: How many reads it takes at most.
* `Arrivals.Gives`: What is taken from the front, and what is left.
* `Wire.Outcome.taken`: What a read has taken.
* `Wire.Reads`: How a read on a stream that flows can end.

## Theorems

* `Wire.read_takes`: A read takes from the front.
* `Wire.read_reads`: A read on a stream that flows ends in one of these ways.
-/

namespace Multidrop

/-- The bytes an arrival brings. -/
def Arrival.bytes : Arrival → List UInt8
  | .data first more => first :: more
  | .ended => []
  | .fault _ => []

/-- An arrival with which the stream neither ends nor breaks. -/
def Arrival.Flows : Arrival → Prop
  | .data _ _ => True
  | .ended => False
  | .fault cause => cause.kind = .interrupted

instance (arrival : Arrival) : Decidable arrival.Flows :=
  match arrival with
  | .data _ _ => isTrue trivial
  | .ended => isFalse not_false
  | .fault cause => inferInstanceAs (Decidable (cause.kind = .interrupted))

namespace Arrivals

/-- What is still to be read. -/
def bytes (script : Arrivals) : List UInt8 :=
  script.flatMap fun entry => entry.2.bytes

/-- The stream neither ends nor breaks. -/
def Flow (script : Arrivals) : Prop :=
  ∀ entry ∈ script, entry.2.Flows

instance (script : Arrivals) : Decidable script.Flow :=
  inferInstanceAs (Decidable (∀ entry ∈ script, entry.2.Flows))

/-- Nothing has to be waited for. -/
def Due (now : Duration) (script : Arrivals) : Prop :=
  ∀ entry ∈ script, entry.1 ≤ now

instance (now : Duration) (script : Arrivals) : Decidable (script.Due now) :=
  inferInstanceAs (Decidable (∀ entry ∈ script, entry.1 ≤ now))

/-- How many reads it takes at most to get everything. -/
def reads (script : Arrivals) : Nat :=
  script.bytes.length + script.length

/-- What is taken from the front, and what is left. -/
structure Gives (script : Arrivals) (taken : List UInt8) (later : Arrivals) : Prop where
  bytes : script.bytes = taken ++ later.bytes
  flow : later.Flow
  due : ∀ now, script.Due now → later.Due now
  reads : later.reads + taken.length ≤ script.reads

variable {script later last : Arrivals} {taken more : List UInt8}

theorem bytes_cons (entry : Duration × Arrival) (script : Arrivals) :
    Arrivals.bytes (entry :: script) = entry.2.bytes ++ script.bytes := by
  rw [bytes, List.flatMap_cons, bytes]

theorem bytes_append (script later : Arrivals) :
    Arrivals.bytes (script ++ later) = script.bytes ++ later.bytes := by
  rw [bytes, List.flatMap_append, bytes, bytes]

theorem reads_cons (entry : Duration × Arrival) (script : Arrivals) :
    Arrivals.reads (entry :: script) = entry.2.bytes.length + 1 + script.reads := by
  rw [reads, bytes_cons, List.length_append, List.length_cons, reads]
  omega

theorem eq_nil_of_reads (h : script.reads = 0) : script = [] := by
  cases script with
  | nil => rfl
  | cons entry script =>
      rw [reads_cons] at h
      omega

theorem flow_append : Arrivals.Flow (script ++ later) ↔ script.Flow ∧ later.Flow :=
  List.forall_mem_append

theorem Gives.refl (h : script.Flow) : script.Gives [] script :=
  ⟨rfl, h, fun _ hdue => hdue, Nat.le_refl _⟩

theorem Gives.trans (h : script.Gives taken later) (h' : later.Gives more last) :
    script.Gives (taken ++ more) last := by
  refine ⟨?_, h'.flow, fun now hdue => h'.due now (h.due now hdue), ?_⟩
  · rw [h.bytes, h'.bytes, List.append_assoc]
  · have hreads := h.reads
    have hreads' := h'.reads
    rw [List.length_append]
    omega

/-- The first arrival as a whole. -/
theorem gives_first {entry : Duration × Arrival} (h : Arrivals.Flow (entry :: script)) :
    Arrivals.Gives (entry :: script) entry.2.bytes script := by
  refine ⟨bytes_cons entry script, ?_, ?_, ?_⟩
  · intro other hother
    exact h other (List.mem_cons_of_mem _ hother)
  · intro now hdue other hother
    exact hdue other (List.mem_cons_of_mem _ hother)
  · rw [reads_cons]
    omega

/-- The front of the first arrival, which then starts with what is left. -/
theorem gives_part {moment : Duration} {first next : UInt8} {rest left : List UInt8} {want : Nat}
    (h : Arrivals.Flow ((moment, .data first rest) :: script))
    (hdrop : (first :: rest).drop want = next :: left) :
    Arrivals.Gives ((moment, .data first rest) :: script) ((first :: rest).take want)
      ((moment, .data next left) :: script) := by
  have hsplit : first :: rest = (first :: rest).take want ++ next :: left := by
    rw [← hdrop, List.take_append_drop]
  have hlength := congrArg List.length hsplit
  rw [List.length_append] at hlength
  refine ⟨?_, ?_, ?_, ?_⟩
  · rw [bytes_cons, bytes_cons]
    simp only [Arrival.bytes]
    rw [← List.append_assoc, ← hsplit]
  · -- What is left of an arrival of bytes is one, due when the whole was.
    intro entry hentry
    rcases List.mem_cons.mp hentry with heq | hmem
    · rw [heq]
      trivial
    · exact h entry (List.mem_cons_of_mem _ hmem)
  · intro now hdue entry hentry
    rcases List.mem_cons.mp hentry with heq | hmem
    · rw [heq]
      exact hdue (moment, .data first rest) List.mem_cons_self
    · exact hdue entry (List.mem_cons_of_mem _ hmem)
  · rw [reads_cons, reads_cons]
    simp only [Arrival.bytes]
    omega

end Arrivals

namespace Wire

/-- What is still to be read from a wire. -/
def coming (w : Wire) : List UInt8 :=
  w.arrivals.bytes

/-- What a read has taken. -/
def Outcome.taken : Outcome (List UInt8) → List UInt8
  | .ready bytes => bytes
  | .failed _ => []
  | .waiting => []

/-- A read takes from the front of what is to come, whatever that is, and no
    more than it wants. -/
theorem read_takes (now : Duration) (want : Nat) (w : Wire) :
    w.coming = (w.read now want).1.taken ++ (w.read now want).2.coming ∧
      (w.read now want).1.taken.length ≤ want := by
  unfold read coming
  split
  · exact ⟨rfl, Nat.zero_le _⟩
  · rename_i moment arrival later harrivals
    split
    · exact ⟨rfl, Nat.zero_le _⟩
    · rw [harrivals, Arrivals.bytes_cons]
      -- Only bytes are taken, and no more than are wanted.
      cases arrival with
      | data first more =>
          simp only [Arrival.bytes]
          split
          · rename_i hdrop
            exact ⟨rfl, List.drop_eq_nil_iff.mp hdrop⟩
          · rename_i next left hdrop
            simp only [Outcome.taken, Arrivals.bytes_cons, Arrival.bytes]
            refine ⟨?_, List.length_take_le _ _⟩
            rw [← List.append_assoc, ← hdrop, List.take_append_drop]
      | ended =>
          simp only [harrivals, Arrivals.bytes_cons]
          exact ⟨rfl, Nat.zero_le _⟩
      | fault cause => exact ⟨rfl, Nat.zero_le _⟩

/-- How a read on a stream that flows can end. -/
inductive Reads (now : Duration) (want : Nat) (w : Wire) : Outcome (List UInt8) × Wire → Prop where
  | waiting (h : w.arrivals.Due now → w.arrivals = []) : Reads now want w (.waiting, w)
  | interrupted (cause : Transport.Fault) (later : Arrivals)
      (hkind : cause.kind = .interrupted) (hgives : w.arrivals.Gives [] later)
      (hfewer : later.reads < w.arrivals.reads) :
      Reads now want w (.failed cause, { w with arrivals := later })
  | bytes (byte : UInt8) (more : List UInt8) (later : Arrivals)
      (hlength : more.length + 1 ≤ want) (hgives : w.arrivals.Gives (byte :: more) later) :
      Reads now want w (.ready (byte :: more), { w with arrivals := later })

/-- A read on a stream that flows waits, is interrupted or takes some bytes,
    by what arrives first. -/
theorem read_reads (now : Duration) {want : Nat} {w : Wire} (h : w.arrivals.Flow)
    (hwant : 0 < want) : Reads now want w (w.read now want) := by
  unfold read
  split
  · rename_i hnone
    exact .waiting fun _ => hnone
  · rename_i moment arrival later harrivals
    rw [harrivals] at h
    split
    · rename_i hearly
      refine .waiting fun hdue => ?_
      rw [harrivals] at hdue
      exact absurd hearly (Nat.not_lt.mpr (hdue _ List.mem_cons_self))
    · cases arrival with
      | data first more =>
          simp only
          split
          · -- All of the arrival is read.
            rename_i hdrop
            have hlength := List.drop_eq_nil_iff.mp hdrop
            rw [List.length_cons] at hlength
            refine .bytes first more later hlength ?_
            rw [harrivals]
            exact Arrivals.gives_first h
          · rename_i next left hdrop
            have hpart := Arrivals.gives_part h hdrop
            -- At least one byte is wanted, so the first one is taken.
            rcases want with _ | want
            · exact absurd hwant (Nat.lt_irrefl 0)
            · rw [List.take_succ_cons] at hpart ⊢
              refine .bytes first (more.take want) _ ?_ ?_
              · rw [List.length_take]
                omega
              · rw [harrivals]
                exact hpart
      | ended => exact absurd (h _ List.mem_cons_self) not_false
      | fault cause =>
          have hgives := Arrivals.gives_first h
          refine .interrupted cause later (h _ List.mem_cons_self) ?_ ?_
          · rw [harrivals]
            exact hgives
          · rw [harrivals, Arrivals.reads_cons]
            omega

end Wire

end Multidrop
