import Multidrop.Proofs.Call.Cuts
import Multidrop.Proofs.Host

/-!
# Runs However Bytes Are Cut

Two hosts whose wires are alike do the same. The calls on them need not take the
same turns, since one of them may get at once what the other gets in pieces. But
turns that take something off the wire do not count, and a call that goes on
reading comes to the same point on both: it waits for the same moment, or it is
over with the same result.

From there on everything goes in step. The jobs take the same passes, the clock
goes to the same moments, since an arrival that is cut has the moment of the
whole, and the jobs that are given up are the same ones.

## Main definitions

* `Agrees`: A call comes to the same on two buses.
* `Alike`: Hosts that differ in how arrivals are cut.
* `Action.Recut`: Actions that differ in how the scripts they bring are cut.

## Theorems

* `advance_front`: A call that receives can be given the first byte alone.
* `agrees_receiving`: The ways in which the fronts of arrivals can differ.
* `advance_same`: Calls come to the same.
* `runSeats_same`: Runs come to the same.
* `perform_recut`: How bytes are cut makes no difference to what can be seen.
-/

namespace Multidrop

namespace Host

variable {interrupts : Bool} {id turns : Nat} {c c' : Call} {b b' left : Bus}

/-! ### Turns until a call has to wait -/

/-- A turn that takes something off the wire does not count. -/
theorem advance_less (hstep : c.step id b = (.again c', left))
    (hless : left.wire.arrivals.weight < b.wire.arrivals.weight) :
    advance id turns c b = advance id turns c' left := by
  rw [advance, hstep]
  exact dif_pos hless

/-- Any other turn does. -/
theorem advance_last (hstep : c.step id b = (.again c', left))
    (hless : ¬ left.wire.arrivals.weight < b.wire.arrivals.weight) :
    advance id 0 c b = (.running c', left) := by
  rw [advance, hstep]
  exact dif_neg hless

theorem advance_next (hstep : c.step id b = (.again c', left))
    (hless : ¬ left.wire.arrivals.weight < b.wire.arrivals.weight) :
    advance id (turns + 1) c b = advance id turns c' left := by
  rw [advance, hstep]
  exact dif_neg hless

theorem advance_waiting (hstep : c.step id b = (.waiting, left)) :
    advance id turns c b = (.running c, left) := by
  rw [advance, hstep]

theorem advance_over {client : Client} {result : Call.Result}
    (hstep : c.step id b = (.over (client, result), left)) :
    advance id turns c b = (.ended client (.finished left.now result), left) := by
  rw [advance, hstep]

/-- Calls that come to the same at their next turn come to the same, if the turn
    takes something off the wire for both of them or for none. -/
theorem advance_congr (hstep : c.step id b = c'.step id b')
    (hless : ∀ next left, c.step id b = (.again next, left) →
      (left.wire.arrivals.weight < b.wire.arrivals.weight ↔
        left.wire.arrivals.weight < b'.wire.arrivals.weight))
    (hwaiting : ∀ left, c.step id b ≠ (.waiting, left)) :
    advance id turns c b = advance id turns c' b' := by
  rw [advance, advance, ← hstep]
  rcases hdone : c.step id b with ⟨next | _ | ⟨client, result⟩, left⟩
  · simp only
    have hiff := hless next left hdone
    by_cases htakes : left.wire.arrivals.weight < b.wire.arrivals.weight
    · rw [dif_pos htakes, dif_pos (hiff.mp htakes)]
    · rw [dif_neg htakes, dif_neg fun hc => htakes (hiff.mpr hc)]
  · exact absurd hdone (hwaiting left)
  · rfl

/-- No header that was given up is taken back, at the first turn and later. -/
theorem advance_resyncs (id turns : Nat) (c : Call) (b : Bus) :
    b.resyncs ≤ (c.step id b).2.resyncs ∧
      (c.step id b).2.resyncs ≤ (advance id turns c b).2.resyncs := by
  refine ⟨(c.step_leaves id b).1, ?_⟩
  fun_induction advance id turns c b with
  | case1 turns c b next left hstep hless ih =>
      rw [hstep]
      exact Nat.le_trans (next.step_leaves id left).1 ih
  | case2 c b next left hstep hless =>
      exact Nat.le_of_eq (by rw [hstep])
  | case3 c b next left hstep hless turns ih =>
      rw [hstep]
      exact Nat.le_trans (next.step_leaves id left).1 ih
  | case4 turns c b left hstep =>
      exact Nat.le_of_eq (by rw [hstep])
  | case5 turns c b client result left hstep =>
      exact Nat.le_of_eq (by rw [hstep])

/-- A call that receives comes to the same if the first byte of an arrival comes
    alone. -/
theorem advance_front {deadline : Option Duration} {early : Bool} {taken : Nat} {r : Reception}
    {moment : Duration} {arrival : Arrival} {later : Arrivals}
    (hstage : c.stage = .receiving deadline early taken r) (hwants : 0 < r.wants)
    (harrivals : b.wire.arrivals = (moment, arrival) :: later) (hdue : ¬ b.now < moment) :
    advance id turns c b = advance id turns c { b with wire := { b.wire with
      arrivals := (moment, arrival.front) :: Arrivals.behind moment arrival later } } := by
  -- An arrival that cannot be cut is its own front, and nothing is left behind it.
  have hsame (h : (moment, arrival.front) :: Arrivals.behind moment arrival later =
      (moment, arrival) :: later) : b = { b with wire := { b.wire with
        arrivals := (moment, arrival.front) :: Arrivals.behind moment arrival later } } := by
    rw [h, ← harrivals]
  cases arrival with
  | ended => rw [← hsame rfl]
  | fault cause => rw [← hsame rfl]
  | data byte more =>
      cases more with
      | nil => rw [← hsame rfl]
      | cons next more =>
          have htakes := Call.takes_data hstage hwants harrivals hdue
          have hnot (left : Bus) : c.step id b ≠ (.waiting, left) := fun hstep =>
            Call.step_ne_waiting id htakes (congrArg Prod.fst hstep)
          rw [Arrival.front, Arrivals.behind, Arrivals.leaving]
          symm
          -- Either turn takes something, and comes to less than what there was at first.
          rcases Call.step_split hstage hwants harrivals hdue id with
            hstep | ⟨c', halone, htakes', hrest⟩
          · refine advance_congr hstep (fun next left _ => ?_) ?_
            · rw [harrivals]
              simp only [Arrivals.weight_cons, Arrival.weight, List.length_nil, List.length_cons]
              omega
            · rw [hstep]
              exact hnot
          · have hleaves := (c'.step_leaves id { b with wire := { b.wire with
              arrivals := (moment, .data next more) :: later } }).2
            -- The first byte alone was not enough, and a second turn reads on from there.
            rw [advance_less halone]
            · refine advance_congr hrest (fun following left hgoes => ?_) ?_
              · rw [if_pos htakes', hgoes] at hleaves
                rw [harrivals]
                simp only [Arrivals.weight_cons, Arrival.weight, List.length_cons] at hleaves ⊢
                omega
              · rw [hrest]
                exact hnot
            · simp only [Arrivals.weight_cons, Arrival.weight, List.length_nil]
              omega

/-- A fault that has been read is no longer there. -/
theorem weight_later {moment : Duration} {cause : Transport.Fault} {later : Arrivals}
    (harrivals : b.wire.arrivals = (moment, .fault cause) :: later) :
    later.weight < b.wire.arrivals.weight := by
  rw [harrivals, Arrivals.weight_cons, Arrival.weight]
  omega

/-- An interrupted call is left with less to read, and has not moved. -/
theorem advance_interrupted {deadline : Option Duration} {early : Bool} {taken : Nat}
    {r : Reception} {moment : Duration} {cause : Transport.Fault} {later : Arrivals}
    (hstage : c.stage = .receiving deadline early taken r)
    (harrivals : b.wire.arrivals = (moment, .fault cause) :: later) (hdue : ¬ b.now < moment)
    (hkind : cause.kind = .interrupted) :
    advance id turns c b =
      advance id turns c { b with wire := { b.wire with arrivals := later } } :=
  advance_less (Call.step_interrupted hstage harrivals hdue hkind id) (weight_later harrivals)

/-- A call comes to the same on two buses, if no header was given up on them but
    where one was before. -/
def Agrees (interrupts : Bool) (id turns : Nat) (c : Call) (b b' : Bus) : Prop :=
  b.Steady interrupts (advance id turns c b).2 → b'.Steady interrupts (advance id turns c b').2 →
    Bus.Same interrupts (advance id turns c b) (advance id turns c b')

/-- All calls agree that have fewer turns left which take nothing. -/
def AgreeLater (interrupts : Bool) (id turns : Nat) : Prop :=
  ∀ turns' < turns, ∀ next left left', Bus.Alike interrupts left left' →
    Agrees interrupts id turns' next left left'

/-- All calls agree that have less to take off the two wires. -/
def AgreeBelow (interrupts : Bool) (id turns : Nat) (b b' : Bus) : Prop :=
  ∀ next left left', Bus.Alike interrupts left left' →
    left.wire.arrivals.weight + left'.wire.arrivals.weight <
      b.wire.arrivals.weight + b'.wire.arrivals.weight →
    Agrees interrupts id turns next left left'

/-- Calls that read the same at their next turn come to the same, if they do so
    from there on. -/
theorem advance_lockstep (h : b.Alike interrupts b') (hreads : c.ReadsSame interrupts b b')
    (hless : AgreeBelow interrupts id turns b b') (hturns : AgreeLater interrupts id turns) :
    Agrees interrupts id turns c b b' := by
  intro hsteady hsteady'
  rcases advance_resyncs id turns c b with ⟨hstart, hrest⟩
  rcases advance_resyncs id turns c b' with ⟨hstart', hrest'⟩
  rcases hsteady.split hstart hrest with ⟨hfirst, hlater⟩
  rcases hsteady'.split hstart' hrest' with ⟨hfirst', hlater'⟩
  -- Both calls take the same turn, and come to the same result.
  have hsame := Call.step_same h hreads hfirst hfirst'
  have htakes := Call.takes_same hreads
  have hleaves := (c.step_leaves id b).2
  have hleaves' := (c.step_leaves id b').2
  rcases hstep : c.step id b with ⟨turn, left⟩
  rcases hstep' : c.step id b' with ⟨turn', left'⟩
  rw [hstep] at hsame hlater hleaves
  rw [hstep'] at hsame hlater' hleaves'
  rcases hsame with ⟨hresult, halike⟩
  have hturn : turn = turn' := hresult
  subst hturn
  rcases turn with next | _ | ⟨client, result⟩
  · -- The turn takes something off both wires, or counts for both.
    by_cases hreading : c.takes b = true
    · rw [if_pos hreading] at hleaves
      rw [← htakes, if_pos hreading] at hleaves'
      rw [advance_less hstep hleaves] at hlater ⊢
      rw [advance_less hstep' hleaves'] at hlater' ⊢
      exact hless next left left' halike (Nat.add_lt_add hleaves hleaves') hlater hlater'
    · rw [if_neg hreading] at hleaves
      rw [← htakes, if_neg hreading] at hleaves'
      cases turns with
      | zero =>
          rw [advance_last hstep (Nat.not_lt.mpr hleaves),
            advance_last hstep' (Nat.not_lt.mpr hleaves')]
          exact ⟨rfl, halike⟩
      -- It counts for both, so both have one turn of their patience less.
      | succ turns =>
          rw [advance_next hstep (Nat.not_lt.mpr hleaves)] at hlater ⊢
          rw [advance_next hstep' (Nat.not_lt.mpr hleaves')] at hlater' ⊢
          exact hturns turns (Nat.lt_succ_self turns) next left left' halike hlater hlater'
  · rw [advance_waiting hstep, advance_waiting hstep']
    exact ⟨rfl, halike⟩
  · rw [advance_over hstep, advance_over hstep']
    exact ⟨by rw [halike.now], halike⟩

section Reading

variable {deadline : Option Duration} {early : Bool} {taken : Nat} {r : Reception}
  {moment : Duration} {arrival arrival' : Arrival} {later later' : Arrivals}

/-- Calls agree that read from arrivals with the same first byte: both are given that
    one alone. -/
theorem agrees_front (h : b.Alike interrupts b')
    (hstage : c.stage = .receiving deadline early taken r) (hwants : 0 < r.wants)
    (harrivals : b.wire.arrivals = (moment, arrival) :: later)
    (harrivals' : b'.wire.arrivals = (moment, arrival') :: later') (hdue : ¬ b.now < moment)
    (hfront : arrival.front = arrival'.front)
    (hbehind : (Arrivals.behind moment arrival later).plain interrupts =
      (Arrivals.behind moment arrival' later').plain interrupts)
    (hless : AgreeBelow interrupts id turns b b') (hturns : AgreeLater interrupts id turns) :
    Agrees interrupts id turns c b b' := by
  have hdue' := hdue
  rw [h.now] at hdue'
  -- With the front cut off on both sides, the two wires offer the same to the first read.
  have hplain :
      Arrivals.plain interrupts
        ((moment, arrival.front) :: Arrivals.behind moment arrival later) =
      Arrivals.plain interrupts
        ((moment, arrival'.front) :: Arrivals.behind moment arrival' later') := by
    rw [Arrivals.plain_cons, Arrivals.plain_cons, hfront, hbehind]
  rw [Agrees, advance_front hstage hwants harrivals hdue,
    advance_front hstage hwants harrivals' hdue']
  refine advance_lockstep (h.with (h.wire.with hplain)) (fun _ _ _ r' _ => ?_)
    (fun next left left' halike hfewer => ?_) hturns
  · rw [← h.now]
    refine (h.wire.with hplain).read rfl rfl hdue ?_ ?_
      (Or.inr ⟨arrival.front_front, arrival'.front_front⟩)
    · rw [arrival.front_front, arrival'.front_front, hfront]
    · rw [Arrivals.behind_front, Arrivals.behind_front, hbehind]
  · -- An arrival in two parts weighs as much as the whole.
    refine hless next left left' halike ?_
    rw [harrivals, harrivals', ← Arrivals.weight_behind moment arrival,
      ← Arrivals.weight_behind moment arrival']
    exact hfewer

/-- Calls agree that wait for a frame, in each of the ways in which the fronts of
    their arrivals can differ. -/
theorem agrees_receiving (h : b.Alike interrupts b')
    (hstage : c.stage = .receiving deadline early taken r)
    (hless : AgreeBelow interrupts id turns b b') (hturns : AgreeLater interrupts id turns) :
    Agrees interrupts id turns c b b' := by
  have hmeet := Arrivals.meet b.now h.wire.arrivals
  generalize harrivals : b.wire.arrivals = script at hmeet
  generalize harrivals' : b'.wire.arrivals = script' at hmeet
  cases hmeet with
  -- Neither has anything to read now.
  | idle hidle hidle' =>
      rw [← harrivals] at hidle
      rw [← harrivals', h.now] at hidle'
      refine advance_lockstep h (fun _ _ _ r _ => ?_) hless hturns
      rw [Wire.read_idle r.wants hidle, Wire.read_idle r.wants hidle']
      exact ⟨rfl, h.wire⟩
  -- Only one of the two is interrupted, and has less to read than it had.
  | first hdue hkind hinterrupts halike =>
      rw [← harrivals'] at halike
      rw [Agrees, advance_interrupted hstage harrivals hdue hkind]
      exact hless c _ _ ⟨h.now, h.link, h.lock, halike, h.wire.device, h.wire.writeRules,
        h.wire.flushRules, h.wire.credit, h.wire.sent⟩
        (Nat.add_lt_add_right (weight_later harrivals) _)
  | second hdue hkind hinterrupts halike =>
      rw [← harrivals] at halike
      rw [h.now] at hdue
      rw [Agrees, advance_interrupted hstage harrivals' hdue hkind]
      exact hless c _ _ ⟨h.now, h.link, h.lock, halike, h.wire.device, h.wire.writeRules,
        h.wire.flushRules, h.wire.credit, h.wire.sent⟩
        (Nat.add_lt_add_left (weight_later harrivals') _)
  -- Both have an arrival, and their arrivals begin with the same byte.
  | both hdue hfront hbehind =>
      by_cases hwants : 0 < r.wants
      · exact agrees_front h hstage hwants harrivals harrivals' hdue hfront hbehind hless hturns
      · -- Who wants no byte reads the same already, and has no first one to be given.
        refine advance_lockstep h (fun _ _ _ r' hstage' => ?_) hless hturns
        rw [hstage, Stage.receiving.injEq] at hstage'
        rw [← h.now]
        refine h.wire.read harrivals harrivals' hdue hfront hbehind (Or.inl ?_)
        rw [← hstage'.2.2.2]
        omega

end Reading

/-- Calls on buses that are alike come to the same, and leave buses that are
    alike. By induction on the turns that take nothing, and on what there is to
    take: where one of the two is interrupted it makes its read again, and where
    one of the two gets more bytes at once, both get the first one alone. -/
theorem advance_same (h : b.Alike interrupts b') : Agrees interrupts id turns c b b' := by
  induction turns using Nat.strongRecOn generalizing c b b' with
  | ind turns ihTurns =>
    induction hweight : b.wire.arrivals.weight + b'.wire.arrivals.weight using Nat.strongRecOn
      generalizing c b b' with
    | ind weight ihWeight =>
      have hturns : AgreeLater interrupts id turns :=
        fun turns' hlt next left left' halike => ihTurns turns' hlt halike
      have hless : AgreeBelow interrupts id turns b b' :=
        fun next left left' halike hfewer => ihWeight _ (hweight ▸ hfewer) halike rfl
      by_cases hreceiving : ∃ deadline early taken r,
          c.stage = .receiving deadline early taken r
      · rcases hreceiving with ⟨deadline, early, taken, r, hstage⟩
        exact agrees_receiving h hstage hless hturns
      · -- A call that does not read has nothing to read differently.
        have hreads : c.ReadsSame interrupts b b' := fun deadline early taken r hstage =>
          absurd ⟨deadline, early, taken, r, hstage⟩ hreceiving
        exact advance_lockstep h hreads hless hturns
/-! ### Runs -/

variable {seats : List Seat} {limit : Option Duration} {passes : Nat}

theorem pass_ended (id : Nat) (client : Client) (outcome : Outcome) (seats : List Seat)
    (b : Bus) :
    pass id (.ended client outcome :: seats) b =
      (.ended client outcome :: (pass (id + 1) seats b).1, (pass (id + 1) seats b).2) := rfl

theorem cancel_ended (id : Nat) (client : Client) (outcome : Outcome) (seats : List Seat)
    (b : Bus) :
    cancel id (.ended client outcome :: seats) b =
      (.ended client outcome :: (cancel (id + 1) seats b).1, (cancel (id + 1) seats b).2) := rfl

theorem pass_resyncs (id : Nat) (seats : List Seat) (b : Bus) :
    b.resyncs ≤ (pass id seats b).2.1.resyncs := by
  fun_induction pass id seats b with
  | case1 id b => exact Nat.le_refl _
  | case2 id call seats b turned rest ih =>
      rcases advance_resyncs id patience call b with ⟨hfirst, hlater⟩
      exact Nat.le_trans (Nat.le_trans hfirst hlater) ih
  | case3 id seat seats b hseat rest ih => exact ih

/-- All jobs come to the same. By induction on the jobs. -/
theorem pass_same (h : b.Alike interrupts b')
    (hsteady : b.Steady interrupts (pass id seats b).2.1)
    (hsteady' : b'.Steady interrupts (pass id seats b').2.1) :
    (pass id seats b).1 = (pass id seats b').1 ∧
      (pass id seats b).2.2 = (pass id seats b').2.2 ∧
      (pass id seats b).2.1.Alike interrupts (pass id seats b').2.1 := by
  induction seats generalizing id b b' with
  | nil => exact ⟨rfl, rfl, h⟩
  | cons seat seats ih =>
      cases seat with
      -- The steadiness of the pass is that of its first call and of the others together.
      | running call =>
          have hgrows (b : Bus) : b.resyncs ≤ (advance id patience call b).2.resyncs :=
            Nat.le_trans (advance_resyncs id patience call b).1
              (advance_resyncs id patience call b).2
          rw [pass] at hsteady hsteady'
          rcases hsteady.split (hgrows b) (pass_resyncs _ _ _) with ⟨hfirst, hlater⟩
          rcases hsteady'.split (hgrows b') (pass_resyncs _ _ _) with ⟨hfirst', hlater'⟩
          have hsame := advance_same h hfirst hfirst'
          rcases ih hsame.bus hlater hlater' with ⟨hseats, hmoved, halike⟩
          rw [pass, pass]
          refine ⟨?_, ?_, halike⟩
          · rw [hsame.result, hseats]
          · rw [hsame.result, hmoved, h.lock, hsame.bus.lock]
      | ended client outcome =>
          rw [pass_ended] at hsteady hsteady' ⊢
          rcases ih h hsteady hsteady' with ⟨hseats, hmoved, halike⟩
          rw [pass_ended, hseats]
          exact ⟨rfl, hmoved, halike⟩

/-- Jobs are given up alike, and no header with them. -/
theorem cancel_same (id : Nat) (seats : List Seat) (h : b.Alike interrupts b') :
    Bus.Same interrupts (cancel id seats b) (cancel id seats b') ∧
      (cancel id seats b).2.resyncs = b.resyncs := by
  induction seats generalizing id b b' with
  | nil => exact ⟨⟨rfl, h⟩, rfl⟩
  | cons seat seats ih =>
      cases seat with
      | running call =>
          have hleave : Bus.Alike interrupts { b with lock := b.lock.leave id }
              { b' with lock := b'.lock.leave id } :=
            ⟨h.now, h.link, by rw [h.lock], h.wire⟩
          rcases ih (id + 1) hleave with ⟨hsame, hresyncs⟩
          rw [cancel, cancel]
          refine ⟨⟨?_, hsame.bus⟩, hresyncs⟩
          rw [hsame.result]
      | ended client outcome =>
          rcases ih (id + 1) h with ⟨hsame, hresyncs⟩
          rw [cancel_ended, cancel_ended, hsame.result]
          exact ⟨⟨rfl, hsame.bus⟩, hresyncs⟩

/-- The next arrival has its moment however it is cut. -/
theorem nextMoment_same (limit : Option Duration) (seats : List Seat)
    (h : b.Alike interrupts b') : nextMoment? limit seats b = nextMoment? limit seats b' := by
  have hmoment : b.wire.arrivals.moment? = b'.wire.arrivals.moment? := by
    rw [← Arrivals.moment_plain interrupts, h.wire.arrivals, Arrivals.moment_plain]
  rw [Arrivals.moment?, Arrivals.moment?] at hmoment
  rw [nextMoment?, nextMoment?, moments, moments, hmoment, h.now]

theorem runSeats_succ (limit : Option Duration) (passes : Nat) (seats : List Seat) (b : Bus) :
    runSeats limit (passes + 1) seats b =
      let done := pass 0 seats b
      if done.1.all Seat.isEnded then (done.1, done.2.1)
      else if done.2.2 then runSeats limit passes done.1 done.2.1
      else if limit.any (· ≤ done.2.1.now) then cancel 0 done.1 done.2.1
      else
        match nextMoment? limit done.1 done.2.1 with
        | none => cancel 0 done.1 done.2.1
        | some moment => runSeats limit passes done.1 { done.2.1 with now := moment } := rfl

theorem cancel_resyncs (id : Nat) (seats : List Seat) (b : Bus) :
    b.resyncs ≤ (cancel id seats b).2.resyncs := by
  exact Nat.le_of_eq (cancel_same id seats (.refl false b)).2.symm

/-- No header that was given up is taken back, at the first pass and later. -/
theorem runSeats_resyncs (limit : Option Duration) (passes : Nat) (seats : List Seat) (b : Bus) :
    b.resyncs ≤ (runSeats limit passes seats b).2.resyncs ∧
      (pass 0 seats b).2.1.resyncs ≤ (runSeats limit (passes + 1) seats b).2.resyncs := by
  -- Each way on from a pass leaves the count as it is or goes on with the passes left.
  have hpass (passes : Nat) (hrest : ∀ (seats : List Seat) (b : Bus),
      b.resyncs ≤ (runSeats limit passes seats b).2.resyncs) (seats : List Seat) (b : Bus) :
      (pass 0 seats b).2.1.resyncs ≤ (runSeats limit (passes + 1) seats b).2.resyncs := by
    rw [runSeats_succ]
    generalize pass 0 seats b = done
    simp only
    split
    · exact Nat.le_refl _
    · split
      · exact hrest _ _
      · split
        · exact cancel_resyncs 0 _ _
        · split
          · exact cancel_resyncs 0 _ _
          · rename_i moment hmoment
            exact hrest done.1 { done.2.1 with now := moment }
  have hall (seats : List Seat) (b : Bus) :
      b.resyncs ≤ (runSeats limit passes seats b).2.resyncs := by
    induction passes generalizing seats b with
    | zero => exact cancel_resyncs 0 seats b
    | succ passes ih => exact Nat.le_trans (pass_resyncs 0 seats b) (hpass passes ih seats b)
  exact ⟨hall seats b, hpass passes hall seats b⟩

/-- Runs on buses that are alike come to the same. By induction on the passes. -/
theorem runSeats_same (h : b.Alike interrupts b')
    (hsteady : b.Steady interrupts (runSeats limit passes seats b).2)
    (hsteady' : b'.Steady interrupts (runSeats limit passes seats b').2) :
    Bus.Same interrupts (runSeats limit passes seats b) (runSeats limit passes seats b') := by
  induction passes generalizing seats b b' with
  | zero => exact (cancel_same 0 seats h).1
  | succ passes ih =>
      rcases hsteady.split (pass_resyncs 0 seats b)
        (runSeats_resyncs limit passes seats b).2 with ⟨hfirst, hlater⟩
      rcases hsteady'.split (pass_resyncs 0 seats b')
        (runSeats_resyncs limit passes seats b').2 with ⟨hfirst', hlater'⟩
      rcases pass_same h hfirst hfirst' with ⟨hseats, hmoved, halike⟩
      rw [runSeats_succ] at hlater hlater' ⊢
      rw [runSeats_succ]
      generalize pass 0 seats b = done at hlater hseats hmoved halike ⊢
      generalize pass 0 seats b' = done' at hlater' hseats hmoved halike ⊢
      rcases done with ⟨seats, b, moved⟩
      rcases done' with ⟨seats', b', moved'⟩
      simp only at hseats hmoved halike hlater hlater' ⊢
      subst hseats hmoved
      -- From here on both hosts decide alike: by the seats, the lock, the limit and the clock.
      rw [← nextMoment_same limit seats halike, ← halike.now] at hlater' ⊢
      by_cases hended : seats.all Seat.isEnded = true
      · rw [if_pos hended, if_pos hended]
        exact ⟨rfl, halike⟩
      rw [if_neg hended] at hlater hlater' ⊢
      rw [if_neg hended]
      by_cases hmoved : moved = true
      · rw [if_pos hmoved] at hlater hlater' ⊢
        rw [if_pos hmoved]
        exact ih halike hlater hlater'
      rw [if_neg hmoved] at hlater hlater' ⊢
      rw [if_neg hmoved]
      by_cases hlimit : limit.any (· ≤ b.now) = true
      · rw [if_pos hlimit, if_pos hlimit]
        exact (cancel_same 0 seats halike).1
      rw [if_neg hlimit] at hlater hlater' ⊢
      rw [if_neg hlimit]
      cases hmoment : nextMoment? limit seats b with
      | none => exact (cancel_same 0 seats halike).1
      | some moment =>
          rw [hmoment] at hlater hlater'
          exact ih ⟨rfl, halike.link, halike.lock, halike.wire⟩ hlater hlater'

/-! ### Actions -/

/-- Hosts that differ in how arrivals are cut, or those that are to come. -/
structure Alike (interrupts : Bool) (h h' : Host) : Prop where
  bus : h.bus.Alike interrupts h'.bus
  clients : h.clients = h'.clients

/-- Two actions differ in nothing but how the scripts that they bring are cut. -/
inductive Action.Recut (interrupts : Bool) : Action → Action → Prop where
  | arrive {script script' : Arrivals} (h : script.Recut interrupts script') :
      Recut interrupts (.arrive script) (.arrive script')
  | answer {scripts scripts' : List Arrivals}
      (h : List.Forall₂ (Arrivals.Recut interrupts) scripts scripts') :
      Recut interrupts (.answer scripts) (.answer scripts')
  | same (a : Action) : Recut interrupts a a

variable {h h' : Host} {a a' : Action}

/-- Scripts that are alike come to hosts that are alike. -/
theorem Alike.arrive (halike : h.Alike interrupts h') {script script' : Arrivals}
    (hplain : script.plain interrupts = script'.plain interrupts) :
    (h.act (.arrive script)).2.Alike interrupts (h'.act (.arrive script')).2 := by
  rw [act, act, halike.bus.now]
  exact ⟨halike.bus.with (halike.bus.wire.deliver _ hplain), halike.clients⟩

theorem Alike.answer (halike : h.Alike interrupts h') {scripts scripts' : List Arrivals}
    (hplain : List.Forall₂ (fun script script' : Arrivals =>
      script.plain interrupts = script'.plain interrupts) scripts scripts') :
    (h.act (.answer scripts)).2.Alike interrupts (h'.act (.answer scripts')).2 := by
  have hwire := halike.bus.wire
  exact ⟨halike.bus.with ⟨hwire.arrivals, hwire.device.addScripts hplain, hwire.writeRules,
    hwire.flushRules, hwire.credit, hwire.sent⟩, halike.clients⟩

theorem run_resyncs (h : Host) (limit : Option Duration) (jobs : List Job) :
    h.bus.resyncs ≤ (h.run limit jobs).2.bus.resyncs :=
  (runSeats_resyncs limit patience _ h.bus).1

theorem run_same (halike : h.Alike interrupts h') {limit : Option Duration} {jobs : List Job}
    (hsteady : h.bus.Steady interrupts (h.run limit jobs).2.bus)
    (hsteady' : h'.bus.Steady interrupts (h'.run limit jobs).2.bus) :
    (h.run limit jobs).1 = (h'.run limit jobs).1 ∧
      (h.run limit jobs).2.Alike interrupts (h'.run limit jobs).2 := by
  have hcalls : h.callOf = h'.callOf := by
    funext job
    rw [callOf, callOf, clientOf, clientOf, halike.clients, halike.bus.now]
  unfold run at hsteady hsteady' ⊢
  rw [← hcalls] at hsteady' ⊢
  have hsame := runSeats_same halike.bus hsteady hsteady'
  simp only
  rw [hsame.result, halike.clients]
  exact ⟨rfl, hsame.bus, rfl⟩

/-- No action takes a header back that was given up. -/
theorem act_resyncs (h : Host) (a : Action) : h.bus.resyncs ≤ (h.act a).2.bus.resyncs := by
  cases a with
  | run time jobs => exact run_resyncs h _ jobs
  | create destination config =>
      rw [act, addClient]
      split
      · exact Nat.le_refl _
      · rename_i hadded
        split at hadded
        · exact absurd hadded nofun
        · exact Nat.le_of_eq (by rw [← (Prod.mk.inj (Except.ok.inj hadded)).2])
  | queueFrame f =>
      rw [act, Host.queueFrame, Link.queueFrame]
      cases f.encode with
      | error e => exact Nat.le_refl _
      | ok bytes => exact Nat.le_refl _
  | _ => exact Nat.le_refl _

theorem act_same (halike : h.Alike interrupts h') (hrecut : a.Recut interrupts a')
    (hsteady : h.bus.Steady interrupts (h.act a).2.bus)
    (hsteady' : h'.bus.Steady interrupts (h'.act a').2.bus) :
    (h.act a).1 = (h'.act a').1 ∧ (h.act a).2.Alike interrupts (h'.act a').2 := by
  cases hrecut with
  -- Where the actions differ, they differ in how the arrivals are cut.
  | arrive hscript => exact ⟨rfl, halike.arrive hscript.plain⟩
  | answer hscripts => exact ⟨rfl, halike.answer (hscripts.imp fun _ _ hscript => hscript.plain)⟩
  | same a =>
      cases a with
      | arrive script => exact ⟨rfl, halike.arrive rfl⟩
      | answer scripts => exact ⟨rfl, halike.answer (List.forall₂_same.mpr fun _ _ => rfl)⟩
      | restrict writeRules flushRules credit =>
          have hwire := halike.bus.wire
          refine ⟨rfl, halike.bus.with ⟨hwire.arrivals, hwire.device, ?_, ?_, rfl, hwire.sent⟩,
            halike.clients⟩
          · exact congrArg (· ++ writeRules) hwire.writeRules
          · exact congrArg (· ++ flushRules) hwire.flushRules
      | elapse time =>
          refine ⟨rfl, ⟨?_, halike.bus.link, halike.bus.lock, halike.bus.wire⟩, halike.clients⟩
          exact congrArg (· + time) halike.bus.now
      | create destination config =>
          simp only [act, addClient]
          cases Client.create destination config with
          | error e => exact ⟨rfl, halike⟩
          | ok client => exact ⟨rfl, halike.bus, congrArg (· ++ [client]) halike.clients⟩
      | queue bytes =>
          refine ⟨rfl, ⟨halike.bus.now, ?_, halike.bus.lock, halike.bus.wire⟩, halike.clients⟩
          exact congrArg (Link.queue bytes) halike.bus.link
      | queueFrame f =>
          simp only [act, Host.queueFrame, ← halike.bus.link]
          cases h.bus.link.queueFrame f with
          | error e => exact ⟨rfl, halike⟩
          | ok link =>
              exact ⟨rfl, ⟨halike.bus.now, rfl, halike.bus.lock, halike.bus.wire⟩,
                halike.clients⟩
      | write client bytes =>
          have hwritten : h.clients.modify client (·.write bytes) =
              h'.clients.modify client (·.write bytes) := by
            rw [halike.clients]
          exact ⟨rfl, halike.bus, hwritten⟩
      | run time jobs =>
          simp only [act] at hsteady hsteady' ⊢
          rw [← halike.bus.now] at hsteady' ⊢
          rcases run_same halike hsteady hsteady' with ⟨houtcomes, hhosts⟩
          exact ⟨congrArg Report.ran houtcomes, hhosts⟩

theorem Alike.view (halike : h.Alike interrupts h') (report : Report) :
    h.view report = h'.view report := by
  rw [Host.view, Host.view, halike.bus.now, halike.bus.wire.sent, halike.bus.link, halike.clients]

theorem perform_resyncs (h : Host) (actions : List Action) :
    h.bus.resyncs ≤ (h.perform actions).2.bus.resyncs := by
  induction actions generalizing h with
  | nil => exact Nat.le_refl _
  | cons a actions ih => exact Nat.le_trans (act_resyncs h a) (ih (h.act a).2)

/-- Hosts that are alike come to the same, whatever is done with them. By induction
    on what is done. -/
theorem perform_same (halike : h.Alike interrupts h') {actions actions' : List Action}
    (hrecut : List.Forall₂ (Action.Recut interrupts) actions actions')
    (hsteady : h.bus.Steady interrupts (h.perform actions).2.bus)
    (hsteady' : h'.bus.Steady interrupts (h'.perform actions').2.bus) :
    (h.perform actions).1 = (h'.perform actions').1 ∧
      (h.perform actions).2.Alike interrupts (h'.perform actions').2 := by
  induction hrecut generalizing h h' with
  | nil => exact ⟨rfl, halike⟩
  | @cons a a' actions actions' hfirst hrest ih =>
      rcases hsteady.split (act_resyncs h a) (perform_resyncs _ actions) with ⟨hact, hlater⟩
      rcases hsteady'.split (act_resyncs h' a') (perform_resyncs _ actions') with
        ⟨hact', hlater'⟩
      rcases act_same halike hfirst hact hact' with ⟨hreport, hhosts⟩
      rcases ih hhosts hlater hlater' with ⟨hviews, hlast⟩
      refine ⟨?_, hlast⟩
      rw [perform, perform, hreport, hhosts.view, hviews]

/-- How bytes are cut into arrivals of the same moment makes no difference to
    anything that can be seen: what comes of each thing that is done and when, what
    is sent, and what the link and the clients keep and count. As long as no header
    is given up, neither do calls that are interrupted before an arrival of the same
    moment. -/
theorem perform_recut (interrupts : Bool) (h : Host) {actions actions' : List Action}
    (hrecut : List.Forall₂ (Action.Recut interrupts) actions actions')
    (hsteady : h.bus.Steady interrupts (h.perform actions).2.bus)
    (hsteady' : h.bus.Steady interrupts (h.perform actions').2.bus) :
    (h.perform actions).1 = (h.perform actions').1 :=
  (perform_same ⟨.refl interrupts h.bus, rfl⟩ hrecut hsteady hsteady').1

/-- A run is over after one pass if its only job ends without waiting. -/
theorem run_one {job : Job}
    (hends : ∃ client outcome left, left.resyncs = b.resyncs ∧
      advance 0 patience (h.callOf job) h.bus = (.ended client outcome, left))
    (limit : Option Duration) : (h.run limit [job]).2.bus.resyncs = b.resyncs := by
  rcases hends with ⟨client, outcome, left, hresyncs, hadvance⟩
  have hpass : pass 0 [.running (h.callOf job)] h.bus = ([.ended client outcome], left, true) := by
    rw [pass, hadvance]
    rfl
  have hpatience : patience = patience - 1 + 1 := by decide
  rw [run, List.map_singleton, hpatience, runSeats_succ, hpass]
  exact hresyncs

set_option maxRecDepth 4096 in
/-- A frame comes in two parts, and the call that reads the second one is interrupted
    first. -/
theorem perform_recut_two_parts :
    let taking : Action := .run (some 1000) [{ task := .receive none }]
    let whole : Action := .arrive [(0, .data 0x54 [0xab, 1, 2, 2, 0x11, 0x12, 0, 0])]
    let parts : Action := .arrive [(0, .data 0x54 [0xab]), (0, .fault { kind := .interrupted }),
      (0, .data 1 [2, 2, 0x11, 0x12, 0, 0])]
    (perform {} [whole, taking]).2.bus.resyncs = 0 ∧
      (perform {} [parts, taking]).2.bus.resyncs = 0 ∧
      (perform {} [whole, taking]).1 = (perform {} [parts, taking]).1 := by
  intro taking whole parts
  -- Two turns take nothing, when the call queues and when it enters.
  have hpatience : patience = 999999999998 + 1 + 1 := rfl
  have hwhole : (perform {} [whole, taking]).2.bus.resyncs = 0 := by
    refine run_one (h := (act {} whole).2) (b := {}) ?_ (some 1000)
    rw [hpatience, advance_next rfl (by decide), advance_next rfl (by decide),
      advance_less rfl (by decide), advance_less rfl (by decide)]
    refine ⟨_, _, _, ?_, advance_over rfl⟩
    rfl
  have hparts : (perform {} [parts, taking]).2.bus.resyncs = 0 := by
    refine run_one (h := (act {} parts).2) (b := {}) ?_ (some 1000)
    rw [hpatience, advance_next rfl (by decide), advance_next rfl (by decide),
      advance_less rfl (by decide), advance_less rfl (by decide),
      advance_less rfl (by decide), advance_less rfl (by decide)]
    refine ⟨_, _, _, ?_, advance_over rfl⟩
    rfl
  refine ⟨hwhole, hparts, perform_recut true {}
    (.cons (.arrive ?_) (.cons (.same taking) .nil)) (fun _ => hwhole) (fun _ => hparts)⟩
  exact .trans _ _ _ (.rel _ _ (.data [] [] 0 0x54 1 [0xab] [2, 2, 0x11, 0x12, 0, 0]))
    (.rel _ _ (.interrupt [(0, .data 0x54 [0xab])] [] 0 (.data 1 [2, 2, 0x11, 0x12, 0, 0]) rfl rfl))

end Host

end Multidrop
