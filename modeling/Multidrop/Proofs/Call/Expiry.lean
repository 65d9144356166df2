import Multidrop.Proofs.Call.Round
import Multidrop.Proofs.Ledger

/-!
# Reads Whose Time Is Up

A read may have to poll any number of times, and stops for no other reason than
that it has got what it reads, that something fails, or that its time is up. The
limit counts only where a call has to wait, so a call whose time is up could go
on for as long as there is something to be done at once. There is not much: what
is in flight and what is to be read, and that becomes less with every turn until
the round is over. A read that pauses then has to wait, and ends.

So a call whose time is up gets to its end with turns alone, whatever is on the
wire. `Call.toil` counts what is left to be done on the way, first by the stage
and within a stage by what there is to be sent or read.

## Main definitions

* `Call.Finishes`: With turns alone a call gets to its end.
* `Call.Outward`: What a turn has to do with the wire and the clock.
* `Call.Late`: A read whose time is up.
* `Call.toil`: What is left to be done at once.

## Theorems

* `Call.Goes.now`: A turn takes no time.
* `Call.step_toils`: A turn of a late read leaves less to be done.
* `Call.Late.finishes`: A late read gets to its end.
-/

namespace Multidrop

namespace Wire

/-- Writing uses rules up, and a write that fails uses one up. -/
theorem write_rules (now : Duration) (offered : List UInt8) (w : Wire) :
    (w.write now offered).2.writeRules.length ≤ w.writeRules.length ∧
      (∀ cause, (w.write now offered).1 = .failed cause →
        (w.write now offered).2.writeRules.length < w.writeRules.length) := by
  have hspend : ∀ (w : Wire) (offered : List UInt8),
      (w.spend now offered).2.writeRules = w.writeRules ∧
        ∀ cause, (w.spend now offered).1 ≠ .failed cause := by
    intro w offered
    unfold spend
    split
    · exact ⟨rfl, fun cause => nofun⟩
    · exact ⟨rfl, fun cause => nofun⟩
    · exact ⟨rfl, fun cause => nofun⟩
  -- By what the schedule has for this write: nothing, a pause, a short write or a failure.
  unfold write
  split
  · rcases hspend w offered with ⟨hrules, hready⟩
    exact ⟨Nat.le_of_eq (congrArg List.length hrules), fun cause h => absurd h (hready cause)⟩
  · rename_i rules hrules
    rw [hrules]
    exact ⟨Nat.le_succ _, fun cause => nofun⟩
  · rename_i count rules _ hrules
    rcases hspend { w with writeRules := rules } (offered.take count) with ⟨hleft, hready⟩
    rw [hleft, hrules]
    exact ⟨Nat.le_succ _, fun cause h => absurd h (hready cause)⟩
  · rename_i cause rules hrules
    rw [hrules]
    exact ⟨Nat.le_succ _, fun _ _ => Nat.lt_succ_self _⟩

/-- A flush that fails uses a rule up. -/
theorem flush_rules (now : Duration) (w : Wire) {cause : Transport.Fault}
    (h : (w.flush now).1 = .failed cause) :
    (w.flush now).2.flushRules.length < w.flushRules.length := by
  unfold flush at h ⊢
  split
  · rename_i hrules
    rw [hrules] at h
    exact absurd h nofun
  · rename_i rules hrules
    rw [hrules] at h
    exact absurd h nofun
  · rename_i fault rules hrules
    rw [hrules]
    exact Nat.lt_succ_self _

end Wire

namespace Drain

variable {bus bus' : Bus} {d d' : Drain}

/-- What is left to be done at once for a drain, by its stage. -/
def toil (d : Drain) (bus : Bus) : Nat × Nat :=
  match d with
  | .starting => (2, 0)
  | .sending => (1, bus.link.inFlight.length + bus.wire.writeRules.length)
  | .flushing => (0, bus.wire.flushRules.length)

theorem Goes.now {move : Turn Drain (Except Link.Error Unit) × Bus} (h : Goes bus d move) :
    move.2.now = bus.now := by
  cases h with
  | _ => rfl

/-- A drain that goes on has less to do. -/
theorem step_toils (h : d.step bus = (.again d', bus')) :
    Prod.Lex (· < ·) (· < ·) (d'.toil bus') (d.toil bus) := by
  cases d with
  -- Each step of a drain comes nearer its end: by the stage, or by what that stage has left.
  | starting =>
      rw [step, Prod.mk.injEq, Turn.again.injEq] at h
      rw [← h.1]
      exact .left _ _ (Nat.lt_succ_self 1)
  | sending =>
      rw [step] at h
      split at h
      · rw [Prod.mk.injEq, Turn.again.injEq] at h
        rw [← h.1]
        exact .left _ _ Nat.one_pos
      · rename_i hflight
        have hrules := bus.wire.write_rules bus.now bus.link.inFlight
        unfold offer at h
        split at h
        · cases congrArg Prod.fst h
        · -- An interrupted write is tried again, and its rule is used up.
          rename_i cause wire hwrite
          rw [hwrite] at hrules
          split at h
          · rw [Prod.mk.injEq, Turn.again.injEq] at h
            rw [← h.1, ← h.2]
            exact .right _ (Nat.add_lt_add_left (hrules.2 cause rfl) _)
          · cases congrArg Prod.fst h
        · cases congrArg Prod.fst h
        · rename_i count wire hcount hwrite
          rw [hwrite] at hrules
          rw [Prod.mk.injEq, Turn.again.injEq] at h
          rw [← h.1, ← h.2]
          -- At least one byte was accepted.
          have hpos : 0 < bus.link.inFlight.length := List.length_pos_iff.mpr hflight
          have hless : (bus.link.inFlight.drop count).length < bus.link.inFlight.length := by
            rw [List.length_drop]
            exact Nat.sub_lt hpos (Nat.pos_of_ne_zero hcount)
          exact .right _ (Nat.add_lt_add_of_lt_of_le hless hrules.1)
  -- A flush has nothing left to write, so only an interrupted one is tried again.
  | flushing =>
      have hrules := @Wire.flush_rules bus.now bus.wire
      rw [step, flush] at h
      split at h
      · cases congrArg Prod.fst h
      · rename_i cause wire hflush
        rw [hflush] at hrules
        split at h
        · rw [Prod.mk.injEq, Turn.again.injEq] at h
          rw [← h.1, ← h.2]
          exact .right _ (hrules rfl)
        · cases congrArg Prod.fst h
      · cases congrArg Prod.fst h

end Drain

namespace Call

/-- With turns alone a call gets to its end, and never has to wait. -/
inductive Finishes (id : Nat) : Call → Bus → Prop where
  | ends {c : Call} {bus bus' : Bus} {final : Client × Result}
      (hstep : c.step id bus = (.over final, bus')) : Finishes id c bus
  | goes {c c' : Call} {bus bus' : Bus} (hstep : c.step id bus = (.again c', bus'))
      (h : Finishes id c' bus') : Finishes id c bus

variable {id : Nat} {c c' : Call} {bus bus' : Bus} {move : Move} {limit : Duration}

/-- What a turn has to do with the wire and the clock: nothing, what its drain does,
    or what its reception does. -/
inductive Outward (bus after : Bus) : Prop where
  | apart (hnow : after.now = bus.now) (hwire : after.wire = bus.wire)
  | drains {d : Drain} {move : Turn Drain (Except Link.Error Unit) × Bus}
      (hgoes : Drain.Goes bus d move) (hnow : after.now = move.2.now)
      (hwire : after.wire = move.2.wire)
  | hears {left : Bus} (hstill : bus.Still left) (hnow : after.now = left.now)
      (hwire : after.wire = left.wire)

theorem Goes.outward (h : Goes id c bus move) : Outward bus move.2 := by
  have hwaits : ∀ {left}, Waits id c bus left → Outward bus left := by
    intro left hwaits
    cases hwaits with
    | inLine hstage hholder => exact .apart rfl rfl
    | sending hstage hgoes => exact .drains hgoes rfl rfl
    | receiving hstage hheard hstill => exact .hears hstill rfl rfl
    | pausing hstage => exact .apart rfl rfl
  cases h with
  -- Only a drain writes and only a reception reads; every other turn is apart from the wire.
  | refuse hfresh => exact .apart rfl rfl
  | answer hfresh hbuffered => exact .apart rfl rfl
  | ask hfresh hbuffered => exact .apart rfl rfl
  | enter hqueued hholder hfits => exact .apart rfl rfl
  | reject hqueued hholder hnone => exact .apart rfl rfl
  | send hsending hgoes => exact .drains hgoes rfl rfl
  | unsent hsending hgoes => exact .drains hgoes rfl rfl
  | sent hsending hgoes hread => exact .drains hgoes rfl rfl
  | listen hsending hgoes hreceives => exact .drains hgoes rfl rfl
  | receive hreceiving hheard hstill => exact .hears hstill rfl rfl
  | settle hreceiving hstill hsettles => exact .hears hstill hsettles.now hsettles.config.2
  | wake hpausing => exact .apart rfl rfl
  | wait h => exact hwaits h
  | expire h =>
      -- What expires has left the wire as what it waits for has.
      cases hwaits h with
      | apart hnow hwire => exact .apart hnow hwire
      | drains hgoes hnow hwire => exact .drains hgoes hnow hwire
      | hears hstill hnow hwire => exact .hears hstill hnow hwire

/-- A turn takes no time. -/
theorem Goes.now (h : Goes id c bus move) : move.2.now = bus.now := by
  cases h.outward with
  | apart hnow hwire => exact hnow
  | drains hgoes hnow hwire => exact hnow.trans hgoes.now
  | hears hstill hnow hwire => exact hnow.trans hstill.now

/-- A read whose time is up. -/
structure Late (limit : Duration) (c : Call) (bus : Bus) : Prop where
  task : c.task.isRead = true
  limited : c.limit = some limit
  up : c.started + limit ≤ bus.now
  /-- A read that polls without a pause would never have to wait. -/
  rate : 0 < c.client.config.pollRate
  sound : c.Sound
  reception : c.reception.Sound bus.link.config.limits

/-- What is left to be done at once for a call, by its stage. -/
def toil (c : Call) (bus : Bus) : Nat × Nat × Nat :=
  match c.stage with
  | .pausing moment => if moment ≤ bus.now then (5, 0, 0) else (0, 0, 0)
  | .fresh => (4, 0, 0)
  | .queued => (3, 0, 0)
  | .sending d => (2, d.toil bus)
  | .receiving .. => (1, 0, bus.wire.arrivals.weight)

/-- Some of it has been done. -/
def Less (toil toil' : Nat × Nat × Nat) : Prop :=
  Prod.Lex (· < ·) (Prod.Lex (· < ·) (· < ·)) toil toil'

theorem Late.polls (h : Late limit c bus) : c.task.polls = true := by
  have htask := h.task
  generalize c.task = task at htask
  cases task with
  | read size => rfl
  | readLine => rfl
  | _ => exact absurd htask Bool.false_ne_true

/-- It does not wait. -/
theorem Late.ne_waiting (h : Late limit c bus) (id : Nat) : (c.step id bus).1 ≠ .waiting := by
  have hnow := (step_goes h.sound id bus).now
  rw [step] at hnow ⊢
  simp only [h.limited] at hnow ⊢
  -- Where its work has to wait, it ends, since its time is up.
  split
  · rename_i bus' hwork
    have hup : c.started + limit ≤ bus'.now := by
      have hgoes := (work_goes h.sound id bus).now
      rw [hwork] at hgoes
      rw [hgoes]
      exact h.up
    rw [if_pos hup]
    rintro ⟨⟩
  · rename_i move hmove
    exact fun hwaiting => hmove (c.work id bus).2 (Prod.ext hwaiting rfl)

/-- It stays late, whatever it does. -/
theorem Late.next (h : Late limit c bus) (hstep : c.step id bus = (.again c', bus')) :
    Late limit c' bus' := by
  have hgoes := step_goes h.sound id bus
  have hafter : c.after (c.step id bus).1 = some c' := by
    rw [hstep]
    rfl
  have hclient := hgoes.client
  have hagain := hgoes.again hafter
  have hreception := step_reception h.sound h.reception id hafter
  rw [hstep] at hgoes hclient hagain
  refine ⟨?_, ?_, ?_, ?_, hgoes.sound h.sound rfl, ?_⟩
  · rw [hagain]
    exact h.task
  · rw [hagain]
    exact h.limited
  · rw [hagain, hgoes.now]
    exact h.up
  · exact hclient.2 ▸ h.rate
  · rw [hgoes.config]
    exact hreception

theorem enter_of_polls (hpolls : c.task.polls = true) (bus : Bus) :
    c.enter bus = c.sendFrame (c.client.pollFrame bus.link) bus := by
  rw [enter]
  generalize c.task = task at hpolls
  cases task with
  | poll => rfl
  | read size => rfl
  | readLine => rfl
  | _ => exact absurd hpolls Bool.false_ne_true

/-- A read that pauses has nothing to do at once. -/
theorem endRound_toils (hrate : 0 < c.client.config.pollRate) {taken : Nat}
    (hround : c.endRound taken bus = (.again c', bus')) : c'.toil bus' = (0, 0, 0) := by
  unfold endRound at hround
  split at hround
  · exact absurd (congrArg Prod.fst hround) nofun
  · simp only at hround
    split at hround
    · exact absurd (congrArg Prod.fst hround) nofun
    · -- The next poll is not due yet, so the pause has to be waited for.
      rw [goTo, Prod.mk.injEq, Turn.again.injEq] at hround
      rw [← hround.1, ← hround.2, toil]
      exact if_neg (Nat.not_le.mpr (Nat.lt_add_of_pos_right hrate))

/-- A reception that is over leads to another one, or to a pause. -/
theorem received_toils (h : Late limit c bus) {deadline : Option Duration} {early : Bool}
    {taken : Nat} {result : Reception.Result} {left : Bus}
    (hless : left.wire.arrivals.weight < bus.wire.arrivals.weight ∨ result = .error .closed)
    (hreceived : c.received deadline early taken result left = (.again c', bus')) :
    Less (c'.toil bus') (1, 0, bus.wire.arrivals.weight) := by
  have htakes := Round.received_takes h.polls deadline early taken result left.now left
  -- A round that is over pauses at most, and a call that pauses is past receiving.
  have hround : ∀ {taken}, c.endRound taken left = (.again c', bus') →
      Less (c'.toil bus') (1, 0, bus.wire.arrivals.weight) := by
    intro taken hround
    rw [endRound_toils h.rate hround]
    exact .left _ _ Nat.one_pos
  have hfewer : Hearing.closes? ⟨left.now, result⟩ = none →
      left.wire.arrivals.weight < bus.wire.arrivals.weight :=
    fun hopen => hless.resolve_right (Round.ne_closed_of_open hopen)
  -- Listening on is no step to another stage, but something was taken for it.
  have hlisten : ∀ {client : Client} {deadline : Option Duration} {taken : Nat},
      Hearing.closes? ⟨left.now, result⟩ = none →
      { c with client }.await deadline taken left = (.again c', bus') →
      Less (c'.toil bus') (1, 0, bus.wire.arrivals.weight) := by
    intro client deadline taken hopen hawait
    rw [await, goTo, Prod.mk.injEq, Turn.again.injEq] at hawait
    rw [← hawait.1, ← hawait.2]
    exact .right _ (.right _ (hfewer hopen))
  rw [hreceived] at htakes
  generalize hmove : (Turn.again c', bus') = move at htakes
  cases htakes with
  | closes hcloses => exact hround hmove.symm
  | fails hcloses => cases congrArg Prod.fst hmove
  | passes hopen hchunk hearly => exact hlisten hopen hmove.symm
  | gives hopen hchunk hlate => exact hround hmove.symm
  | collects hopen hchunk => exact hlisten hopen hmove.symm

/-! Each stage but the pause leads to one with less to be done behind it. -/

theorem fresh_toils (hstage : c.stage = .fresh) (hwork : c.work id bus = (.again c', bus')) :
    Less (c'.toil bus') (c.toil bus) := by
  have htoil : c.toil bus = (4, 0, 0) := by rw [toil, hstage]
  simp only [work, hstage, start] at hwork
  split at hwork
  · cases congrArg Prod.fst hwork
  · -- Unless the buffer answers, the call stands in line next.
    simp only [enqueue] at hwork
    split at hwork
    · cases congrArg Prod.fst hwork
    · rw [goTo, Prod.mk.injEq, Turn.again.injEq] at hwork
      rw [htoil, ← hwork.1]
      exact .left _ _ (Nat.lt_succ_self 3)

theorem queued_toils (hpolls : c.task.polls = true) (hstage : c.stage = .queued)
    (hwork : c.work id bus = (.again c', bus')) : Less (c'.toil bus') (c.toil bus) := by
  have htoil : c.toil bus = (3, 0, 0) := by rw [toil, hstage]
  simp only [work, hstage, enter_of_polls hpolls, sendFrame] at hwork
  split at hwork
  · -- It has the lock, and goes on only if its frame is queued.
    split at hwork
    · cases congrArg Prod.fst hwork
    · rw [goTo, Prod.mk.injEq, Turn.again.injEq] at hwork
      rw [htoil, ← hwork.1]
      exact .left _ _ (Nat.lt_succ_self 2)
  · cases congrArg Prod.fst hwork

theorem sending_toils {d : Drain} (hpolls : c.task.polls = true) (hstage : c.stage = .sending d)
    (hwork : c.work id bus = (.again c', bus')) : Less (c'.toil bus') (c.toil bus) := by
  have htoil : c.toil bus = (2, d.toil bus) := by rw [toil, hstage]
  simp only [work, hstage] at hwork
  rcases hdrain : d.step bus with ⟨d' | _ | (e | ⟨⟩), left⟩
  · -- The stage stays, and its drain has less to do.
    simp only [hdrain] at hwork
    rw [goTo, Prod.mk.injEq, Turn.again.injEq] at hwork
    rw [htoil, ← hwork.1, ← hwork.2]
    exact .right _ (Drain.step_toils hdrain)
  · simp only [hdrain] at hwork
    cases congrArg Prod.fst hwork
  · simp only [hdrain] at hwork
    cases congrArg Prod.fst hwork
  · -- All is sent, and the call listens.
    simp only [hdrain, Round.sent_of_polls hpolls] at hwork
    rw [await, goTo, Prod.mk.injEq, Turn.again.injEq] at hwork
    rw [htoil, ← hwork.1]
    exact .left _ _ (Nat.lt_succ_self 1)

theorem receiving_toils (h : Late limit c bus) {deadline : Option Duration} {early : Bool}
    {taken : Nat} {r : Reception} (hstage : c.stage = .receiving deadline early taken r)
    (hwork : c.work id bus = (.again c', bus')) : Less (c'.toil bus') (c.toil bus) := by
  -- While a call receives, what it has left is what may still arrive.
  have htoil : c.toil bus = (1, 0, bus.wire.arrivals.weight) := by rw [toil, hstage]
  have hreception := h.reception
  rw [reception, hstage] at hreception
  have htakes := reception_takes c.onlyFrom hreception
  rw [work_eq_afterReception hstage] at hwork
  rw [htoil]
  rcases hreads : r.step c.onlyFrom bus with ⟨r' | _ | result, left⟩
  · -- A reception that goes on has taken something off the wire.
    simp only [hreads, afterReception] at htakes hwork
    rw [goTo, Prod.mk.injEq, Turn.again.injEq] at hwork
    rw [← hwork.1, ← hwork.2]
    exact .right _ (.right _ htakes)
  · -- Nothing came in time.
    simp only [hreads, afterReception] at hwork
    split at hwork
    · rw [Round.lost_of_polls h.polls] at hwork
      rw [endRound_toils h.rate hwork]
      exact .left _ _ Nat.one_pos
    · cases congrArg Prod.fst hwork
  · simp only [hreads, afterReception] at htakes hwork
    exact received_toils h htakes hwork

theorem pausing_toils {moment : Duration} (hstage : c.stage = .pausing moment)
    (hwork : c.work id bus = (.again c', bus')) : Less (c'.toil bus') (c.toil bus) := by
  simp only [work, hstage] at hwork
  split at hwork
  · -- Only a pause that is over is left, so it counts as the most there is to do.
    rename_i hpassed
    have htoil : c.toil bus = (5, 0, 0) := by
      rw [toil, hstage]
      exact if_pos hpassed
    rw [goTo, Prod.mk.injEq, Turn.again.injEq] at hwork
    rw [htoil, ← hwork.1]
    exact .left _ _ (Nat.lt_succ_self 4)
  · cases congrArg Prod.fst hwork

/-- A turn of a late read that does not end it leaves less to be done. -/
theorem step_toils (h : Late limit c bus) (hstep : c.step id bus = (.again c', bus')) :
    Less (c'.toil bus') (c.toil bus) := by
  -- A turn that goes on is not one that is cut short by the limit.
  have hwork : c.work id bus = (.again c', bus') := by
    rcases step_work id c bus with hsame | ⟨left, e, _, hover⟩
    · rw [← hsame, hstep]
    · rw [hover] at hstep
      cases congrArg Prod.fst hstep
  cases hstage : c.stage with
  | fresh => exact fresh_toils hstage hwork
  | queued => exact queued_toils h.polls hstage hwork
  | sending d => exact sending_toils h.polls hstage hwork
  | receiving deadline early taken r => exact receiving_toils h hstage hwork
  | pausing moment => exact pausing_toils hstage hwork

theorem less_wf : WellFounded Less :=
  (Prod.lex Nat.lt_wfRel (Prod.lex Nat.lt_wfRel Nat.lt_wfRel)).wf

/-- A late read gets to its end, whatever is on the wire. By induction on what is
    left to be done. -/
theorem Late.finishes (h : Late limit c bus) (id : Nat) : Finishes id c bus := by
  induction htoil : c.toil bus using less_wf.induction generalizing c bus with
  | h left ih =>
      rcases hstep : c.step id bus with ⟨c' | _ | final, bus'⟩
      · exact .goes hstep (ih _ (htoil ▸ step_toils h hstep) (h.next hstep) rfl)
      · exact absurd (congrArg Prod.fst hstep) (h.ne_waiting id)
      · exact .ends hstep

end Call

end Multidrop
