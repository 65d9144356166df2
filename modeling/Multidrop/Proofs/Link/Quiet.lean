import Multidrop.Proofs.Link.Reception

/-!
# Wires That Are Left to Themselves

What a drain and a reception do to the two directions of a wire. A drain uses
up rules and credit and leaves what is to be read alone, unless the device at
the far end answers what it hears. A reception changes what is to be read and
nothing else.

A wire is quiet if nobody answers by themselves at its far end. All that can be
read from it then is what is brought there from outside, at whatever moment. A
wire is obliging if nothing that is sent over it fails: calls may take few
bytes, have to wait or be interrupted, and a drain still ends well or not at
all.

## Main definitions

* `Wire.Quiet`: Nobody answers by themselves.
* `Wire.Obliging`: Nothing that is sent fails.
* `Wire.Intact`: Nothing has changed but what is to be read.

## Theorems

* `Drain.step_quiet`: A drain leaves what is to be read alone.
* `Drain.step_obliging`: A drain over an obliging wire does not fail.
* `Reception.step_intact`: A reception leaves the rest of the wire alone.
-/

namespace Multidrop

namespace Wire

/-- Nobody answers by themselves at the far end. -/
def Quiet (w : Wire) : Prop :=
  w.device = .scripted []

instance (w : Wire) : Decidable w.Quiet :=
  inferInstanceAs (Decidable (_ = _))

/-- A rule by which a write goes on, at once or when it is made again. -/
def WriteRule.Obliges : WriteRule → Prop
  | .atMost count => 0 < count
  | .fault cause => cause.kind = .interrupted

instance (rule : WriteRule) : Decidable rule.Obliges :=
  match rule with
  | .atMost count => inferInstanceAs (Decidable (0 < count))
  | .fault cause => inferInstanceAs (Decidable (cause.kind = .interrupted))

/-- A rule by which a flush goes on, at once or when it is made again. -/
def FlushRule.Obliges : FlushRule → Prop
  | .pass => True
  | .fault cause => cause.kind = .interrupted

instance (rule : FlushRule) : Decidable rule.Obliges :=
  match rule with
  | .pass => isTrue trivial
  | .fault cause => inferInstanceAs (Decidable (cause.kind = .interrupted))

/-- Nothing that is sent over the wire fails. -/
structure Obliging (w : Wire) : Prop where
  writes : ∀ rule ∈ w.writeRules, rule.Obliges
  flushes : ∀ rule ∈ w.flushRules, rule.Obliges

instance (w : Wire) : Decidable w.Obliging :=
  decidable_of_iff ((∀ rule ∈ w.writeRules, rule.Obliges) ∧ ∀ rule ∈ w.flushRules, rule.Obliges)
    ⟨fun h => ⟨h.1, h.2⟩, fun h => ⟨h.writes, h.flushes⟩⟩

/-- Between two moments nothing of a wire has changed but what is to be
    read. -/
def Intact (w w' : Wire) : Prop :=
  w' = { w with arrivals := w'.arrivals }

variable {w w' w'' : Wire} {now : Duration} {offered : List UInt8}

theorem Intact.refl (w : Wire) : w.Intact w := rfl

theorem Intact.trans (h : w.Intact w') (h' : w'.Intact w'') : w.Intact w'' := by
  rw [Intact] at h h' ⊢
  rw [h', h]

theorem Intact.quiet (h : w.Intact w') (hquiet : w.Quiet) : w'.Quiet := by
  rw [Quiet, h]
  exact hquiet

theorem Intact.obliging (h : w.Intact w') (hobliging : w.Obliging) : w'.Obliging := by
  rw [h]
  exact ⟨hobliging.writes, hobliging.flushes⟩

/-! ### Reading -/

/-- A read changes what is to be read and nothing else. -/
theorem read_intact (now : Duration) (want : Nat) (w : Wire) :
    w.Intact (w.read now want).2 := by
  unfold read
  split
  · exact .refl w
  · split
    · exact .refl w
    · split
      · split
        · rfl
        · rfl
      · exact .refl w
      · rfl

/-! ### Sending -/

/-- What is sent over a quiet wire is heard, and not answered. -/
theorem send_quiet (h : w.Quiet) (now : Duration) (bytes : List UInt8) :
    (w.send now bytes).arrivals = w.arrivals ∧ (w.send now bytes).Quiet := by
  rw [Quiet] at h
  simp only [send, h, Device.hear, deliver, Arrivals.startingAt, List.map_nil, List.append_nil,
    Quiet, and_self]

theorem spend_quiet (h : w.Quiet) (now : Duration) (offered : List UInt8) :
    (w.spend now offered).2.arrivals = w.arrivals ∧ (w.spend now offered).2.Quiet := by
  unfold spend
  split
  · exact send_quiet h now offered
  · exact ⟨rfl, h⟩
  · rename_i credit hnone hcredit
    let spent : Wire := { w with credit := some (credit - (offered.take credit).length) }
    have hspent : spent.Quiet := h
    exact send_quiet hspent now (offered.take credit)

theorem write_quiet (h : w.Quiet) (now : Duration) (offered : List UInt8) :
    (w.write now offered).2.arrivals = w.arrivals ∧ (w.write now offered).2.Quiet := by
  unfold write
  split
  · exact spend_quiet h now offered
  · exact ⟨rfl, h⟩
  · rename_i count rules hcount hrules
    let ruled : Wire := { w with writeRules := rules }
    have hruled : ruled.Quiet := h
    exact spend_quiet hruled now (offered.take count)
  · exact ⟨rfl, h⟩

theorem answerFlush_quiet (h : w.Quiet) (now : Duration) :
    (w.answerFlush now).arrivals = w.arrivals ∧ (w.answerFlush now).Quiet := by
  rw [Quiet] at h
  simp only [answerFlush, h, Device.flushed, deliver, Arrivals.startingAt, List.map_nil,
    List.append_nil, Quiet, and_self]

theorem flush_quiet (h : w.Quiet) (now : Duration) :
    (w.flush now).2.arrivals = w.arrivals ∧ (w.flush now).2.Quiet := by
  unfold flush
  split
  · exact answerFlush_quiet h now
  · rename_i rules hrules
    let ruled : Wire := { w with flushRules := rules }
    have hruled : ruled.Quiet := h
    exact answerFlush_quiet hruled now
  · exact ⟨rfl, h⟩

/-- Something that is offered is taken, in part at least, or has to wait. -/
theorem spend_obliging (h : w.Obliging) (hoffered : offered ≠ []) (now : Duration) :
    (w.spend now offered).2.Obliging ∧ (∀ cause, (w.spend now offered).1 ≠ .failed cause) ∧
      (w.spend now offered).1 ≠ .ready 0 := by
  have hpos := List.length_pos_iff.mpr hoffered
  unfold spend
  split
  · refine ⟨⟨h.writes, h.flushes⟩, nofun, ?_⟩
    rw [ne_eq, Outcome.ready.injEq]
    omega
  · exact ⟨h, nofun, nofun⟩
  · rename_i credit hnone hcredit
    have hcount : 0 < credit := Nat.pos_of_ne_zero hnone
    refine ⟨⟨h.writes, h.flushes⟩, nofun, ?_⟩
    rw [ne_eq, Outcome.ready.injEq, List.length_take]
    omega

theorem write_obliging (h : w.Obliging) (hoffered : offered ≠ []) (now : Duration) :
    (w.write now offered).2.Obliging ∧
      (∀ cause, (w.write now offered).1 = .failed cause → cause.kind = .interrupted) ∧
        (w.write now offered).1 ≠ .ready 0 := by
  have hwrites := h.writes
  unfold write
  split
  · rcases spend_obliging h hoffered now with ⟨hspent, hfailed, hready⟩
    exact ⟨hspent, fun cause hcause => absurd hcause (hfailed cause), hready⟩
  · -- A write that may take nothing is not obliging.
    rename_i rules hrules
    rw [hrules] at hwrites
    exact absurd (hwrites _ List.mem_cons_self) (Nat.lt_irrefl 0)
  · -- A rule that limits the write still lets one byte through.
    rename_i count rules hcount hrules
    rw [hrules] at hwrites
    have hruled : Obliging { w with writeRules := rules } :=
      ⟨fun rule hrule => hwrites rule (List.mem_cons_of_mem _ hrule), h.flushes⟩
    have htaken : offered.take count ≠ [] := by
      rw [ne_eq, List.take_eq_nil_iff, not_or]
      exact ⟨hcount, hoffered⟩
    rcases spend_obliging hruled htaken now with ⟨hspent, hfailed, hready⟩
    exact ⟨hspent, fun cause hcause => absurd hcause (hfailed cause), hready⟩
  · -- The only fault an obliging wire knows is an interruption.
    rename_i cause rules hrules
    rw [hrules] at hwrites
    refine ⟨⟨fun rule hrule => hwrites rule (List.mem_cons_of_mem _ hrule), h.flushes⟩, ?_,
      nofun⟩
    intro cause' hcause
    rw [Outcome.failed.injEq] at hcause
    rw [← hcause]
    exact hwrites _ List.mem_cons_self

theorem flush_obliging (h : w.Obliging) (now : Duration) :
    (w.flush now).2.Obliging ∧
      ∀ cause, (w.flush now).1 = .failed cause → cause.kind = .interrupted := by
  have hflushes := h.flushes
  unfold flush
  split
  · exact ⟨⟨h.writes, h.flushes⟩, nofun⟩
  · rename_i rules hrules
    rw [hrules] at hflushes
    exact ⟨⟨h.writes, fun rule hrule => hflushes rule (List.mem_cons_of_mem _ hrule)⟩,
      nofun⟩
  · rename_i cause rules hrules
    rw [hrules] at hflushes
    refine ⟨⟨h.writes, fun rule hrule => hflushes rule (List.mem_cons_of_mem _ hrule)⟩, ?_⟩
    intro cause' hcause
    rw [Outcome.failed.injEq] at hcause
    rw [← hcause]
    exact hflushes _ List.mem_cons_self

end Wire

namespace Drain

variable {bus : Bus}

/-- A drain over a quiet wire leaves what is to be read alone. -/
theorem step_quiet (h : bus.wire.Quiet) (d : Drain) :
    (d.step bus).2.wire.arrivals = bus.wire.arrivals ∧ (d.step bus).2.wire.Quiet := by
  cases d with
  | starting => exact ⟨rfl, h⟩
  | sending =>
      -- Whatever the write comes to, a quiet device says nothing to it.
      have hwrite := Wire.write_quiet h bus.now bus.link.inFlight
      simp only [step]
      split
      · exact ⟨rfl, h⟩
      · unfold offer
        generalize bus.wire.write bus.now bus.link.inFlight = outcome at hwrite ⊢
        split
        · exact hwrite
        · split
          · exact hwrite
          · exact hwrite
        · exact hwrite
        · exact hwrite
  | flushing =>
      have hflush := Wire.flush_quiet h bus.now
      simp only [step]
      unfold flush
      generalize bus.wire.flush bus.now = outcome at hflush ⊢
      split
      · exact hflush
      · split
        · exact hflush
        · exact hflush
      · exact hflush

/-- A drain over an obliging wire does not fail. -/
theorem step_obliging (h : bus.wire.Obliging) (d : Drain) :
    (d.step bus).2.wire.Obliging ∧ ∀ e, (d.step bus).1 ≠ .over (.error e) := by
  cases d with
  | starting => exact ⟨h, by rintro e ⟨⟩⟩
  | sending =>
      simp only [step]
      split
      · exact ⟨h, by rintro e ⟨⟩⟩
      · rename_i hflight
        have hwrite := Wire.write_obliging h hflight bus.now
        unfold offer
        generalize bus.wire.write bus.now bus.link.inFlight = outcome at hwrite ⊢
        split
        · exact ⟨hwrite.1, by rintro e ⟨⟩⟩
        · -- An interruption is no error of the drain, which tries again.
          rename_i cause wire
          rw [if_pos (hwrite.2.1 cause rfl)]
          exact ⟨hwrite.1, by rintro e ⟨⟩⟩
        · exact absurd rfl hwrite.2.2
        · exact ⟨hwrite.1, by rintro e ⟨⟩⟩
  | flushing =>
      have hflush := Wire.flush_obliging h bus.now
      simp only [step]
      unfold flush
      generalize bus.wire.flush bus.now = outcome at hflush ⊢
      split
      · exact ⟨hflush.1, by rintro e ⟨⟩⟩
      · rename_i cause wire
        rw [if_pos (hflush.2 cause rfl)]
        exact ⟨hflush.1, by rintro e ⟨⟩⟩
      · refine ⟨hflush.1, fun e => ?_⟩
        simp only [ne_eq, Turn.over.injEq, reduceCtorEq, not_false_eq_true]

end Drain

namespace Reception

theorem readArrived_intact (now : Duration) (want : Nat) (wire : Wire) :
    wire.Intact (readArrived now want wire).2 := by
  have hread := Wire.read_intact now want wire
  unfold readArrived
  generalize wire.read now want = outcome at hread ⊢
  split
  · exact hread
  · exact hread
  · split
    · exact hread
    · exact hread

theorem discard_intact (now : Duration) (window : Nat) (wire : Wire) :
    wire.Intact (discard now window wire).2 := by
  induction window using Nat.strongRecOn generalizing wire with
  | ind window ih =>
    have hread := readArrived_intact now (min window discardChunk) wire
    rw [discard]
    split
    · exact .refl wire
    · rename_i hwindow
      generalize readArrived now (min window discardChunk) wire = outcome at hread ⊢
      split
      · exact hread
      · exact hread
      · rename_i byte more wire'
        exact hread.trans (ih (window - (more.length + 1)) (by omega) wire')

theorem giveUp_intact (reason : Link.ResyncReason) (bus : Bus) :
    bus.wire.Intact (giveUp reason bus).2.wire := by
  have hdiscard := discard_intact bus.now bus.link.config.resyncWindow bus.wire
  unfold giveUp resynchronize
  generalize discard bus.now bus.link.config.resyncWindow bus.wire = outcome at hdiscard ⊢
  split
  · exact hdiscard
  · exact hdiscard

/-- Closing a frame reads nothing. -/
theorem close_wire (onlyFrom : Option UInt8) (bytes : List UInt8) (bus : Bus) :
    (close onlyFrom bytes bus).2.wire = bus.wire := by
  unfold close
  split
  · rfl
  · rfl
  · rfl

theorem proceed_intact (onlyFrom : Option UInt8) (byte : UInt8) (more : List UInt8)
    (r : Reception) (bus : Bus) : bus.wire.Intact (r.proceed onlyFrom byte more bus).2.wire := by
  cases r with
  | header got =>
      simp only [proceed]
      split
      · exact .refl _
      · unfold openHeader
        split
        · split
          · -- Only giving up touches the wire, and that reads and sends nothing.
            exact giveUp_intact _ bus
          · exact .refl _
        · exact .refl _
  | length got decoder =>
      simp only [proceed]
      unfold openLength
      split
      · exact .refl _
      · exact .refl _
      · split
        · exact giveUp_intact _ bus
        · exact .refl _
  | body got missing =>
      simp only [proceed]
      split
      · rw [close_wire]
        exact .refl _
      · exact .refl _

/-- A reception leaves all of the wire alone but what is to be read. -/
theorem step_intact (onlyFrom : Option UInt8) (r : Reception) (bus : Bus) :
    bus.wire.Intact (r.step onlyFrom bus).2.wire := by
  have hread := Wire.read_intact bus.now r.wants bus.wire
  unfold step
  generalize bus.wire.read bus.now r.wants = outcome at hread ⊢
  split
  · exact hread
  · split
    · exact hread
    · exact hread
  · exact hread
  · rename_i byte more wire
    exact hread.trans (proceed_intact onlyFrom byte more r { bus with wire })

end Reception

end Multidrop
