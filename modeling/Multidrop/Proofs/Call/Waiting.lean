import Multidrop.Proofs.Call.Cuts
import Multidrop.Proofs.Call.Receiving

/-!
# Calls That Are Looked at in Time

What a call comes to that waits for frames until a deadline, when it is never
looked at too late. It takes its turns until it has to wait, and then the clock
goes on, but no further than to the next moment for which the call asked, and
no further than to the moment at which the first arrival is due. Others may
make the clock stop before that, any number of times, and the lock is theirs to
do with as they like.

`Call.Concludes` says that a call gets through, whatever the clock does in
between, and what holds of all it has heard and of the move with which it stops
listening. There are finitely many turns to be taken until then. A turn that
listens on takes something off the wire, and the clock goes on no further than
to the deadline while nothing is taken. That is the measure of every proof that
a call concludes.

## Main definitions

* `Hearing`: What a call has heard, and when.
* `Call.Prompt`: A later moment of a bus at which a call is looked at in time.
* `Call.Concludes`: A call gets through.
* `Call.look`: What a call comes to for given moments, computed.
* `Call.Listens`: What a turn of a call can do that waits for a frame.

## Theorems

* `Call.step_listens`: A turn does one of these things.
* `Call.Concludes.and`, `Call.Concludes.mono`: What holds of a move in the end.
* `Call.Concludes.look`: What holds in the end holds of what is computed.
* `Call.Concludes.of_invariant`: A call gets through by an invariant.
-/

namespace Multidrop

/-- What a call has heard, and when. -/
structure Hearing where
  moment : Duration
  result : Reception.Result
  deriving DecidableEq

namespace Call

/-- What is heard at a turn, if it ends a reception. -/
def hearing (c : Call) (bus : Bus) : List Hearing :=
  (c.heard bus).toList.map (⟨bus.now, ·⟩)

/-- A later moment of a bus at which a call that waits is looked at in time. -/
structure Prompt (c : Call) (bus later : Bus) : Prop where
  after : bus.now < later.now
  /-- The clock has not gone past a moment for which the call asked. -/
  wakes : ∀ moment ∈ c.wakes, bus.now < moment → later.now ≤ moment
  /-- Nor has it gone past the moment at which there is something to be read. -/
  arrives : ∀ entry ∈ bus.wire.arrivals.head?, bus.now < entry.1 → later.now ≤ entry.1
  link : later.link = bus.link
  wire : later.wire = bus.wire

/-- A call that is looked at in time gets through: after finitely many turns it
    listens no more, and then `P` holds of all it has heard and of its last
    move. -/
inductive Concludes (id : Nat) (P : List Hearing → Move → Prop) :
    List Hearing → Call → Bus → Prop where
  | ends {log : List Hearing} {c : Call} {bus : Bus}
      (hafter : ∀ c', c.after (c.step id bus).1 = some c' → c'.isReceiving = false)
      (h : P (log ++ c.hearing bus) (c.step id bus)) : Concludes id P log c bus
  | goes {log : List Hearing} {c c' : Call} {bus bus' : Bus}
      (hstep : c.step id bus = (.again c', bus')) (hreceiving : c'.isReceiving = true)
      (h : Concludes id P (log ++ c.hearing bus) c' bus') : Concludes id P log c bus
  /-- There is a moment to wait for, and whenever the clock stops. -/
  | waits {log : List Hearing} {c : Call} {bus : Bus} (hstep : c.step id bus = (.waiting, bus))
      (hreceiving : c.isReceiving = true) (hwakes : ∃ moment ∈ c.wakes, bus.now < moment)
      (h : ∀ later, c.Prompt bus later → Concludes id P log c later) : Concludes id P log c bus

variable {id : Nat} {c c' : Call} {bus bus' : Bus} {move : Move} {P Q : List Hearing → Move → Prop}
  {log : List Hearing}

theorem Concludes.mono (h : Concludes id P log c bus) (hPQ : ∀ log move, P log move → Q log move) :
    Concludes id Q log c bus := by
  induction h with
  | ends hafter h => exact .ends hafter (hPQ _ _ h)
  | goes hstep hreceiving h ih => exact .goes hstep hreceiving ih
  | waits hstep hreceiving hwakes h ih => exact .waits hstep hreceiving hwakes ih

/-- A call that listens on, at once or after waiting, has not got through. -/
theorem not_ends (hafter : c.after (c.step id bus).1 = some c') (hreceiving : c'.isReceiving = true) :
    ¬ ∀ c', c.after (c.step id bus).1 = some c' → c'.isReceiving = false := by
  intro hends
  rw [hends c' hafter] at hreceiving
  exact absurd hreceiving Bool.false_ne_true

theorem after_again (hstep : c.step id bus = (.again c', bus')) :
    c.after (c.step id bus).1 = some c' := by
  rw [hstep]
  rfl

theorem after_waiting (hstep : c.step id bus = (.waiting, bus')) :
    c.after (c.step id bus).1 = some c := by
  rw [hstep]
  rfl

/-- What is shown of a call in two ways holds of it together, since a turn comes
    to one thing. -/
theorem Concludes.and (hP : Concludes id P log c bus) (hQ : Concludes id Q log c bus) :
    Concludes id (fun log move => P log move ∧ Q log move) log c bus := by
  -- Both take the same turns, so they go on, wait and end together.
  induction hP with
  | ends hafter h =>
      cases hQ with
      | ends hafter' h' => exact .ends hafter ⟨h, h'⟩
      | goes hstep hreceiving h' => exact absurd hafter (not_ends (after_again hstep) hreceiving)
      | waits hstep hreceiving hwakes h' =>
          exact absurd hafter (not_ends (after_waiting hstep) hreceiving)
  -- One turn has one outcome, so the second claim has to go the same way.
  | goes hstep hreceiving h ih =>
      cases hQ with
      | ends hafter h' => exact absurd hafter (not_ends (after_again hstep) hreceiving)
      | goes hstep' hreceiving' h' =>
          rw [hstep, Prod.mk.injEq, Turn.again.injEq] at hstep'
          rw [← hstep'.1, ← hstep'.2] at h'
          exact .goes hstep hreceiving (ih h')
      | waits hstep' hreceiving' hwakes h' => exact absurd (hstep.symm.trans hstep') nofun
  | waits hstep hreceiving hwakes h ih =>
      cases hQ with
      | ends hafter h' => exact absurd hafter (not_ends (after_waiting hstep) hreceiving)
      | goes hstep' hreceiving' h' => exact absurd (hstep.symm.trans hstep') nofun
      | waits hstep' hreceiving' hwakes' h' =>
          exact .waits hstep hreceiving hwakes fun later hprompt =>
            ih later hprompt (h' later hprompt)

/-- What is shown of a move in the end is shown of some move. By induction; the
    clock can always go on a little. -/
theorem Concludes.comes (h : Concludes id P log c bus) : ∃ log move, P log move := by
  induction h with
  | ends hafter h => exact ⟨_, _, h⟩
  | goes hstep hreceiving h ih => exact ih
  | @waits log c bus hstep hreceiving hwakes h ih =>
      exact ih { bus with now := bus.now + 1 }
        ⟨Nat.lt_succ_self _, fun _ _ hlate => hlate, fun _ _ hlate => hlate, rfl, rfl⟩

/-- Let a call take turns and, where it has to wait, move the clock on to the next of
    some stops: what it has heard then, and the move with which it listens no more. There
    is none where a stop is not in time, or more turns or stops are needed. -/
def look (id : Nat) : Nat → List Duration → List Hearing → Call → Bus →
    Option (List Hearing × Move)
  | 0, _, _, _, _ => none
  | turns + 1, stops, log, c, bus =>
    let move := c.step id bus
    if (c.after move.1).any isReceiving then
      match move, stops with
      | (.again c', bus'), stops => look id turns stops (log ++ c.hearing bus) c' bus'
      | (.waiting, _), now :: stops =>
        if bus.now < now ∧ (∀ moment ∈ c.wakes, bus.now < moment → now ≤ moment) ∧
            ∀ entry ∈ bus.wire.arrivals.head?, bus.now < entry.1 → now ≤ entry.1 then
          look id turns stops log c { bus with now }
        else none
      | _, _ => none
    else some (log ++ c.hearing bus, move)

/-- What is shown of a call holds of what it comes to whenever it is looked at. -/
theorem Concludes.look (h : Concludes id P log c bus) {turns : Nat} {stops : List Duration}
    {heard : List Hearing} (hlook : look id turns stops log c bus = some (heard, move)) :
    P heard move := by
  induction h generalizing turns stops with
  | @ends log c bus hafter h =>
      cases turns with
      | zero => exact absurd hlook nofun
      | succ turns =>
          -- The call no longer receives, so the look ends here with what was heard.
          have hover : ¬ (c.after (c.step id bus).1).any isReceiving = true := by
            rw [Option.any_eq_true]
            rintro ⟨c', hc', hreceiving⟩
            exact not_ends hc' hreceiving hafter
          simp only [Call.look, if_neg hover, Option.some.injEq, Prod.mk.injEq] at hlook
          rw [← hlook.1, ← hlook.2]
          exact h
  | goes hstep hreceiving h ih =>
      cases turns with
      | zero => exact absurd hlook nofun
      | succ turns =>
          simp only [Call.look, after_again hstep, Option.any_some, if_pos hreceiving] at hlook
          simp only [hstep] at hlook
          exact ih hlook
  | @waits log c bus hstep hreceiving hwakes h ih =>
      cases turns with
      | zero => exact absurd hlook nofun
      | succ turns =>
          simp only [Call.look, after_waiting hstep, Option.any_some, if_pos hreceiving] at hlook
          cases stops with
          | nil =>
              simp only [hstep] at hlook
              exact absurd hlook nofun
          | cons now stops =>
              simp only [hstep] at hlook
              split at hlook
              · -- The stop is one of the moments at which the clock may stop.
                rename_i hprompt
                exact ih { bus with now } ⟨hprompt.1, hprompt.2.1, hprompt.2.2, rfl, rfl⟩ hlook
              · exact absurd hlook nofun

/-! ### By an invariant -/

/-- What one turn has to come to that keeps an invariant, of which `deadline` is
    a part. -/
inductive Advances (id : Nat) (P : List Hearing → Move → Prop)
    (I : Duration → List Hearing → Call → Bus → Prop) (deadline : Duration)
    (log : List Hearing) (c : Call) (bus : Bus) : Move → Prop where
  | ends {move : Move} (hafter : ∀ c', c.after move.1 = some c' → c'.isReceiving = false)
      (h : P (log ++ c.hearing bus) move) : Advances id P I deadline log c bus move
  | goes (deadline' : Duration) {c' : Call} {bus' : Bus} (hreceiving : c'.isReceiving = true)
      (hless : bus'.wire.arrivals.weight < bus.wire.arrivals.weight)
      (h : I deadline' (log ++ c.hearing bus) c' bus') :
      Advances id P I deadline log c bus (.again c', bus')
  | waits (hreceiving : c.isReceiving = true) (hwakes : deadline ∈ c.wakes)
      (hbefore : bus.now < deadline) (h : ∀ later, c.Prompt bus later → I deadline log c later) :
      Advances id P I deadline log c bus (.waiting, bus)

/-- A call gets through by an invariant that every turn keeps. By induction on
    what there is to be taken off the wire, and for as long as nothing is taken
    on the time until the deadline. -/
theorem Concludes.of_invariant {I : Duration → List Hearing → Call → Bus → Prop}
    (hadvances : ∀ {deadline log c bus}, I deadline log c bus →
      Advances id P I deadline log c bus (c.step id bus))
    {deadline : Duration} (h : I deadline log c bus) : Concludes id P log c bus := by
  induction hweight : bus.wire.arrivals.weight using Nat.strongRecOn
    generalizing deadline log c bus with
  | ind weight ihweight =>
      -- The time left counts as long as nothing is taken off the wire.
      induction hleft : deadline - bus.now using Nat.strongRecOn generalizing bus with
      | ind left ihleft =>
          have hadvance := hadvances h
          generalize hmove : c.step id bus = move at hadvance
          cases hadvance with
          | ends hafter hP =>
              rw [← hmove] at hafter hP
              exact .ends hafter hP
          | goes deadline' hreceiving hless hI =>
              -- The deadline may have moved, since there is less to be taken.
              rw [hweight] at hless
              exact .goes hmove hreceiving (ihweight _ hless hI rfl)
          | waits hreceiving hwakes hbefore hI =>
              refine .waits hmove hreceiving ⟨deadline, hwakes, hbefore⟩ fun later hprompt => ?_
              refine ihleft (deadline - later.now) ?_ (hI later hprompt) ?_ rfl
              · -- The deadline stands, and the clock has come closer to it.
                rw [← hleft]
                exact Nat.sub_lt_sub_left hbefore hprompt.after
              · rw [hprompt.wire]
                exact hweight

/-! ### Turns of a call that waits for a frame -/

/-- Everything a turn of a call can do that waits for a frame until a deadline,
    whatever is on the wire. -/
inductive Listens (id : Nat) (c : Call) (deadline : Duration) (early : Bool) (taken : Nat)
    (r : Reception) (bus : Bus) : Move → Prop where
  | reads {r' : Reception} {bus' : Bus} (hstep : r.step c.onlyFrom bus = (.again r', bus'))
      (hstill : bus.Still bus') (hless : bus'.wire.arrivals.weight < bus.wire.arrivals.weight)
      (hheard : c.heard bus = none) :
      Listens id c deadline early taken r bus
        (.again { c with stage := .receiving (some deadline) early taken r' }, bus')
  | waits (hstep : r.step c.onlyFrom bus = (.waiting, bus)) (hbefore : bus.now < deadline)
      (hheard : c.heard bus = none) : Listens id c deadline early taken r bus (.waiting, bus)
  /-- The time of the call is up. -/
  | expires {limit : Duration} (hstep : r.step c.onlyFrom bus = (.waiting, bus))
      (hbefore : bus.now < deadline) (hlimit : c.limit = some limit)
      (hup : c.started + limit ≤ bus.now) (hheard : c.heard bus = none) :
      Listens id c deadline early taken r bus
        (.over (c.client, .error (.timeout limit)), { bus with lock := bus.lock.leave id })
  /-- The deadline has come. -/
  | misses (hstep : r.step c.onlyFrom bus = (.waiting, bus)) (hpassed : deadline ≤ bus.now)
      (hheard : c.heard bus = none) : Listens id c deadline early taken r bus (c.lost taken bus)
  | hears {result : Reception.Result} {bus' : Bus}
      (hstep : r.step c.onlyFrom bus = (.over result, bus')) (hstill : bus.Still bus')
      (hless : bus'.wire.arrivals.weight < bus.wire.arrivals.weight ∨ result = .error .closed)
      (hheard : c.heard bus = some result) :
      Listens id c deadline early taken r bus
        (c.received (some deadline) early taken result bus')

variable {deadline : Duration} {early : Bool} {taken : Nat} {r : Reception}

theorem hearing_of_none (h : c.heard bus = none) : c.hearing bus = [] := by
  rw [hearing, h]
  rfl

theorem hearing_of_some {result : Reception.Result} (h : c.heard bus = some result) :
    c.hearing bus = [⟨bus.now, result⟩] := by
  rw [hearing, h]
  rfl

/-- A call whose frames have been sent goes on, whatever its time. -/
theorem step_of_drained {d : Drain} (hstage : c.stage = .sending d)
    (hdrain : d.step bus = (.over (.ok ()), bus')) : c.step id bus = c.sent bus' := by
  have hwork : c.work id bus = c.sent bus' := by
    rw [work, hstage]
    simp only [hdrain]
  rw [step, hwork, sent]
  cases c.task with
  | _ => rfl

/-- A reception that waits leaves all as it is, and one that goes on or is over
    has taken something off the wire, unless the stream has ended. -/
theorem reception_takes (onlyFrom : Option UInt8) (hsound : r.Sound bus.link.config.limits) :
    match r.step onlyFrom bus with
    | (.waiting, bus') => bus' = bus
    | (.again _, bus') => bus'.wire.arrivals.weight < bus.wire.arrivals.weight
    | (.over result, bus') =>
      bus'.wire.arrivals.weight < bus.wire.arrivals.weight ∨ result = .error .closed := by
  have hleaves := (r.step_leaves onlyFrom bus).2
  have hread := bus.wire.read_leaves bus.now r.wants
  have hmoves := Reception.step_moves onlyFrom hsound
  generalize r.step onlyFrom bus = turn at hleaves hmoves ⊢
  cases hmoves with
  | waiting hwaits =>
      simp only [hwaits, Wire.Outcome.takes, Bool.false_eq_true, if_false] at hread
      simp only [hread]
  | interrupted hfails hkind =>
      simp only [hfails, Wire.Outcome.takes, if_true] at hleaves
      exact hleaves
  | failed hfails hkind =>
      simp only [hfails, Wire.Outcome.takes, if_true] at hleaves
      exact Or.inl hleaves
  -- The end of the stream stays where it is, so nothing is taken there.
  | closed hends => exact Or.inr rfl
  | bytes hbytes hturn hcomes =>
      simp only [hbytes, Wire.Outcome.takes, if_true] at hleaves
      cases hcomes with
      | again next hnext hgot => exact hleaves
      | untrusted reason huntrusted => exact Or.inl hleaves
      | unreadable cause hunreadable => exact Or.inl hleaves
      | whole p haccepted htaken => exact Or.inl hleaves

/-- A turn of a call that waits for a frame does one of the things such a turn
    can do. -/
theorem step_listens (hstage : c.stage = .receiving (some deadline) early taken r)
    (hsound : c.Sound) (hreception : r.Sound bus.link.config.limits) (id : Nat) :
    Listens id c deadline early taken r bus (c.step id bus) := by
  have hreceives : c.task.receives = true := by
    simpa only [Sound, hstage] using hsound
  have hheard := heard_receiving hstage bus
  have htakes := reception_takes c.onlyFrom hreception
  have hstill := r.step_still c.onlyFrom bus
  have hwork := work_eq_afterReception hstage id bus
  have hmoved := @step_of_moved id c bus
  rw [hwork] at hmoved
  generalize hreads : r.step c.onlyFrom bus = turn at hheard htakes hstill hwork hmoved
  rcases turn with ⟨r' | _ | result, bus'⟩
  · -- The reception read on, so nothing else of the call counts in this turn.
    have hagain : (c.afterReception (some deadline) early taken (.again r') bus').1 ≠ .waiting := by
      simp only [afterReception, goTo, ne_eq, reduceCtorEq, not_false_eq_true]
    rw [hmoved hagain]
    exact .reads hreads hstill htakes hheard
  · simp only at htakes
    rw [htakes] at hreads hwork hmoved
    rw [afterReception, Option.any_some] at hwork hmoved
    by_cases hpassed : deadline ≤ bus.now
    · -- A call that goes without an answer does not have to wait.
      rw [if_pos (decide_eq_true hpassed)] at hmoved
      rw [hmoved (lost_settles c taken bus).moved]
      exact .misses hreads hpassed hheard
    · have hbefore : bus.now < deadline := Nat.not_le.mp hpassed
      rw [if_neg (by rw [decide_eq_true_eq]; exact hpassed)] at hwork
      simp only [step, hwork]
      split
      · exact .waits hreads hbefore hheard
      · rename_i limit hlimit
        by_cases hup : c.started + limit ≤ bus.now
        · rw [if_pos hup]
          exact .expires hreads hbefore hlimit hup hheard
        · rw [if_neg hup]
          exact .waits hreads hbefore hheard
  · rw [hmoved (received_settles hreceives (some deadline) early taken result bus').moved]
    exact .hears hreads hstill htakes hheard

end Call

end Multidrop
