import Multidrop.Proofs.Call.Reading
import Multidrop.Proofs.Link.Agreement
import Multidrop.Proofs.Link.Quiet

/-!
# Calls That Wait for a Frame

What a turn of a call takes from a stream that flows. A call that waits for a
frame reads on, or is answered as a reception has to be, or gives up: its
deadline or its limit has passed, and nothing that is due is left. A call that
does not wait for a frame takes nothing.

What a call has taken of a frame is part of its reception. The call keeps it as
long as it waits, and a call that gives up does not, so that what it has taken
is lost. This is what `abandons` says. Nothing else about a frame is ever lost.

## Main definitions

* `Call.reception`: How far a call has come with the frame it waits for.
* `Call.abandons`: What is lost with a turn.
* `Call.Receives`: What a turn of a call that waits for a frame can do.

## Theorems

* `Call.step_receives`: A turn does one of these things.
* `Call.step_elsewhere`: At other stages a turn takes nothing.
-/

namespace Multidrop

namespace Call

/-- How far a call has come with the frame it waits for. A call that does not
    wait for one has not taken anything. -/
def reception (c : Call) : Reception :=
  match c.stage with
  | .receiving _ _ _ reception => reception
  | _ => .start

/-- Whether a call waits for a frame. -/
def isReceiving (c : Call) : Bool :=
  match c.stage with
  | .receiving .. => true
  | _ => false

/-- What is lost with a turn: what a call has taken of a frame, if the call has
    not heard the frame and does not wait for it any more. -/
def abandons (id : Nat) (c : Call) (bus : Bus) : List UInt8 :=
  if (c.heard bus).isNone && (c.after (c.step id bus).1).all (!·.isReceiving) then
    c.reception.got
  else []

/-- What a turn of a call that waits for a frame can do, on a stream that
    flows. -/
inductive Receives (c : Call) (bus : Bus) : Move → Prop where
  /-- The call waits on, with what it has read. -/
  | reads {move : Move} {c' : Call} (taken : List UInt8) (hheard : c.heard bus = none)
      (hafter : c.after move.1 = some c') (hreceiving : c'.isReceiving = true)
      (hsound : c'.reception.Sound bus.link.config.limits)
      (hgot : c'.reception.got = c.reception.got ++ taken)
      (hgives : bus.wire.arrivals.Gives taken move.2.wire.arrivals)
      (hfewer : move.2.wire.arrivals.reads < bus.wire.arrivals.reads ∨
        (bus.wire.arrivals.Due bus.now → bus.wire.arrivals = [])) : Receives c bus move
  /-- The reception is over. -/
  | hears {move : Move} (result : Reception.Result) (hheard : c.heard bus = some result)
      (hafter : ∀ c', c.after move.1 = some c' → c'.reception = .start)
      (hflow : move.2.wire.arrivals.Flow)
      (hanswers : Reception.Answers bus.link.config.limits c.onlyFrom
        (c.reception.got ++ bus.wire.coming) result move.2.wire.coming) : Receives c bus move
  /-- The call gives up, and nothing that is due is left. -/
  | leaves {move : Move} (hheard : c.heard bus = none)
      (hafter : ∀ c', c.after move.1 = some c' → c'.isReceiving = false)
      (harrivals : move.2.wire.arrivals = bus.wire.arrivals)
      (hidle : bus.wire.arrivals.Due bus.now → bus.wire.arrivals = []) : Receives c bus move

variable {id : Nat} {c c' : Call} {bus bus' : Bus} {move : Move} {stage : Stage}

theorem isReceiving_iff : c.isReceiving = true ↔
    ∃ deadline early taken reception, c.stage = .receiving deadline early taken reception := by
  unfold isReceiving
  split
  · rename_i deadline early taken reception hstage
    exact iff_of_true rfl ⟨deadline, early, taken, reception, hstage⟩
  · rename_i hstage
    refine iff_of_false Bool.false_ne_true ?_
    rintro ⟨deadline, early, taken, reception, hreceiving⟩
    exact hstage _ _ _ _ hreceiving

theorem reception_of_not_receiving (h : c.isReceiving = false) : c.reception = .start := by
  unfold reception
  split
  · rename_i deadline early taken reception hstage
    simp only [isReceiving, hstage, Bool.true_eq_false] at h
  · rfl

theorem heard_of_not_receiving (h : c.isReceiving = false) : c.heard bus = none := by
  refine heard_of_stage rfl fun deadline early taken reception hstage => ?_
  simp only [isReceiving, hstage, Bool.true_eq_false] at h

/-- Nothing is left of a call that is over. -/
theorem after_over_ne {final : Client × Result} : c.after (.over final) ≠ some c' := by
  simp only [after, ne_eq, reduceCtorEq, not_false_eq_true]

/-- A turn is one of a call whose time is not limited, or it is the end of one
    that has to wait. -/
theorem step_work (id : Nat) (c : Call) (bus : Bus) : c.step id bus = c.work id bus ∨
    ∃ bus' e, c.work id bus = (.waiting, bus') ∧
      c.step id bus = (.over (c.client, .error e), { bus' with lock := bus'.lock.leave id }) := by
  unfold step
  split
  · rename_i bus' hwork
    rw [hwork]
    split
    · exact Or.inl rfl
    · rename_i limit hlimit
      split
      · exact Or.inr ⟨bus', _, rfl, rfl⟩
      · exact Or.inl rfl
  · exact Or.inl rfl

/-- Without a limit, a turn is what the stage makes of it. -/
theorem step_of_unlimited (h : c.limit = none) (id : Nat) (bus : Bus) :
    c.step id bus = c.work id bus := by
  unfold step
  split
  · rename_i left hwork
    rw [h, hwork]
  · rfl

/-- A limit on the time of a call counts only in a turn that has to wait. -/
theorem step_of_moved (h : (c.work id bus).1 ≠ .waiting) : c.step id bus = c.work id bus := by
  rcases step_work id c bus with hstep | ⟨left, e, hwaits, _⟩
  · exact hstep
  · exact absurd (congrArg Prod.fst hwaits) h

/-- What settles a call moves it. -/
theorem Settles.moved {data : List UInt8} {move : Move} (h : c.Settles bus data move) :
    move.1 ≠ .waiting := by
  cases h with
  | listen => nofun
  | finish hread => nofun
  | answer hbuffered => nofun
  | pause hbuffered => nofun

/-- A call that goes without an answer does not wait for one. -/
theorem lost_leaves {taken : Nat} (h : c.after (c.lost taken bus).1 = some c') :
    c'.isReceiving = false := by
  have hround : ∀ {c'}, c.after (c.endRound taken bus).1 = some c' → c'.isReceiving = false := by
    intro c' h
    unfold endRound at h
    split at h
    · exact absurd h after_over_ne
    · simp only [] at h
      split at h
      · exact absurd h after_over_ne
      · rw [← Option.some.inj h]
        rfl
  unfold lost at h
  split at h
  · exact absurd h after_over_ne
  · exact hround h

/-- What follows a reception does not depend on it any more. -/
theorem Settles.reception {data : List UInt8} (h : c.Settles bus data move)
    (hafter : c.after move.1 = some c') : c'.reception = .start := by
  cases h with
  | listen => exact Option.some.inj hafter ▸ rfl
  | finish hread => exact absurd hafter after_over_ne
  | answer hbuffered => exact absurd hafter after_over_ne
  | pause hbuffered => exact Option.some.inj hafter ▸ rfl

/-- What follows a reception takes no time. -/
theorem Settles.now {data : List UInt8} (h : c.Settles bus data move) :
    move.2.now = bus.now := by
  cases h with
  | listen => rfl
  | finish hread => rfl
  | answer hbuffered => rfl
  | pause hbuffered => rfl

/-- What a call that waits for a frame hears is what its reception comes to. -/
theorem heard_receiving {deadline : Option Duration} {early : Bool} {taken : Nat} {r : Reception}
    (hstage : c.stage = .receiving deadline early taken r) (bus : Bus) :
    c.heard bus = (r.step c.onlyFrom bus).1.result? := by
  simp only [heard, hstage]
  cases (r.step c.onlyFrom bus).1 with
  | _ => rfl

/-- A turn of a call that waits for a frame reads on, hears the frame, or gives
    it up. -/
theorem step_receives (hsound : c.Sound) (hreceiving : c.isReceiving = true)
    (hreception : c.reception.Sound bus.link.config.limits) (h : bus.wire.arrivals.Flow)
    (id : Nat) : Receives c bus (c.step id bus) := by
  rcases isReceiving_iff.mp hreceiving with ⟨deadline, early, taken, r, hstage⟩
  have hr : c.reception = r := by
    simp only [reception, hstage]
  have hreceives : c.task.receives = true := by
    simpa only [Sound, hstage] using hsound
  rw [hr] at hreception
  have hsteps := Reception.step_steps c.onlyFrom hreception h
  have hworks := step_work id c bus
  have hheard := heard_receiving hstage bus
  simp only [work, hstage] at hworks
  generalize r.step c.onlyFrom bus = turn at hsteps hworks hheard
  -- The limit on the time of a call counts only where its reception has to wait.
  cases hsteps with
  | waiting hdue =>
      have hnothing : bus.wire.arrivals.Gives [] bus.wire.arrivals := .refl h
      by_cases hpassed : deadline.any (· ≤ bus.now) = true
      · simp only [if_pos hpassed] at hworks
        rcases hworks with hstep | ⟨bus', e, hlost, hstep⟩
        · rw [hstep]
          refine .leaves hheard (fun c' => lost_leaves) ?_ hdue
          rw [(lost_settles c taken bus).config.2]
        · -- A call that goes without an answer does not have to wait.
          exact absurd (congrArg Prod.fst hlost) (lost_settles c taken bus).moved
      · simp only [if_neg hpassed] at hworks
        rcases hworks with hstep | ⟨bus', e, hwaits, hstep⟩
        · rw [hstep]
          refine .reads [] hheard rfl hreceiving ?_ (List.append_nil _).symm hnothing (Or.inr hdue)
          rw [hr]
          exact hreception
        · rw [Prod.mk.injEq] at hwaits
          rw [hstep, ← hwaits.2]
          exact .leaves hheard (fun c' hafter => absurd hafter after_over_ne) rfl hdue
  -- The reception read on, so the limit of the call had no say.
  | again next bus' more hnext hgot hgives hfewer =>
      rcases hworks with hstep | ⟨bus'', e, hwaits, hstep⟩
      · rw [hstep]
        refine .reads more hheard rfl rfl hnext ?_ hgives (Or.inl hfewer)
        rw [hr]
        exact hgot
      · simp only [goTo, Prod.mk.injEq, reduceCtorEq, false_and] at hwaits
  | ended result bus' more hgives hfewer hanswers =>
      have hsettles := received_settles hreceives deadline early taken result bus'
      rcases hworks with hstep | ⟨bus'', e, hwaits, hstep⟩
      · rw [hstep]
        have hwire := hsettles.config.2
        -- The result settles the call without a look at the wire.
        refine .hears result hheard (fun c' hafter => hsettles.reception hafter) ?_ ?_
        · rw [hwire]
          exact hgives.flow
        · rw [hr, hwire]
          exact hanswers
      · exact absurd (congrArg Prod.fst hwaits) hsettles.moved

/-- A call that is in no exchange leaves the wire alone, and begins its
    receptions at their start. -/
theorem Goes.apart_wire (h : Goes id c bus move) (hstage : ¬ c.stage.exchanging = true) :
    move.2.wire = bus.wire ∧ ∀ c', c.after move.1 = some c' → c'.reception = .start := by
  cases h with
  | refuse hfresh => exact ⟨rfl, fun c' hafter => absurd hafter after_over_ne⟩
  | answer hfresh hbuffered => exact ⟨rfl, fun c' hafter => absurd hafter after_over_ne⟩
  | ask hfresh hbuffered => exact ⟨rfl, fun c' hafter => Option.some.inj hafter ▸ rfl⟩
  | enter hqueued hholder hfits =>
      refine ⟨rfl, fun c' hafter => ?_⟩
      rw [← Option.some.inj hafter]
      simp only [reception, opening]
      -- A call that only receives starts at once, and the others send first.
      cases c.task with
      | receive source => rfl
      | _ => rfl
  | reject hqueued hholder hnone => exact ⟨rfl, fun c' hafter => absurd hafter after_over_ne⟩
  -- Draining and receiving are the stages of an exchange, which this call is not in.
  | send hsending hgoes => exact absurd (by rw [hsending]; rfl) hstage
  | unsent hsending hgoes => exact absurd (by rw [hsending]; rfl) hstage
  | sent hsending hgoes hread => exact absurd (by rw [hsending]; rfl) hstage
  | listen hsending hgoes hreceives => exact absurd (by rw [hsending]; rfl) hstage
  | receive hreceiving hheard hstill => exact absurd (by rw [hreceiving]; rfl) hstage
  | settle hreceiving hstill hsettles => exact absurd (by rw [hreceiving]; rfl) hstage
  | wake hpausing => exact ⟨rfl, fun c' hafter => Option.some.inj hafter ▸ rfl⟩
  -- It waits in line or pauses, so it has no reception under way.
  | wait hwaits =>
      refine ⟨by rw [hwaits.apart hstage], fun c' hafter => ?_⟩
      rw [← Option.some.inj hafter]
      refine reception_of_not_receiving (Bool.eq_false_iff.mpr fun hreceiving => ?_)
      rcases isReceiving_iff.mp hreceiving with ⟨deadline, early, taken, r, hreceiving⟩
      exact absurd (by rw [hreceiving]; rfl) hstage
  | expire hwaits =>
      exact ⟨by rw [hwaits.apart hstage], fun c' hafter => absurd hafter after_over_ne⟩

/-- What follows a drain leaves the wire alone. -/
theorem sent_wire (c : Call) (bus : Bus) : (c.sent bus).2.wire = bus.wire ∧
    ∀ c', c.after (c.sent bus).1 = some c' → c'.reception = .start := by
  unfold sent
  cases c.task with
  | poll => exact ⟨rfl, fun c' hafter => Option.some.inj hafter ▸ rfl⟩
  | read size => exact ⟨rfl, fun c' hafter => Option.some.inj hafter ▸ rfl⟩
  | readLine => exact ⟨rfl, fun c' hafter => Option.some.inj hafter ▸ rfl⟩
  | query request => exact ⟨rfl, fun c' hafter => Option.some.inj hafter ▸ rfl⟩
  | _ => exact ⟨rfl, fun c' hafter => absurd hafter after_over_ne⟩

/-- A call that sends does with the wire what its drain does. -/
theorem step_sending {d : Drain} (hstage : c.stage = .sending d) (id : Nat) (bus : Bus) :
    (c.step id bus).2.wire = (d.step bus).2.wire ∧
      ∀ c', c.after (c.step id bus).1 = some c' → c'.reception = .start := by
  -- What comes after the drain begins to listen at most, and reads nothing yet.
  have hwork : (c.work id bus).2.wire = (d.step bus).2.wire ∧
      ∀ c', c.after (c.work id bus).1 = some c' → c'.reception = .start := by
    simp only [work, hstage]
    split
    · rename_i d' bus' hstep
      rw [hstep]
      exact ⟨rfl, fun c' hafter => Option.some.inj hafter ▸ rfl⟩
    · rename_i bus' hstep
      rw [hstep]
      refine ⟨rfl, fun c' hafter => ?_⟩
      rw [← Option.some.inj hafter]
      simp only [reception, hstage]
    · rename_i e bus' hstep
      rw [hstep]
      exact ⟨rfl, fun c' hafter => absurd hafter after_over_ne⟩
    · rename_i bus' hstep
      rw [hstep]
      exact sent_wire c bus'
  rcases step_work id c bus with hstep | ⟨bus', e, hwaits, hstep⟩
  · rw [hstep]
    exact hwork
  · -- A call whose time is up still did the turn of its stage.
    rw [hwaits] at hwork
    rw [hstep]
    exact ⟨hwork.1, fun c' hafter => absurd hafter after_over_ne⟩

/-- A call that waits for a frame does with the wire what its reception does,
    and takes no time. -/
theorem step_receiving (hsound : c.Sound) (hreceiving : c.isReceiving = true) (id : Nat)
    (bus : Bus) : bus.wire.Intact (c.step id bus).2.wire ∧ (c.step id bus).2.now = bus.now := by
  rcases isReceiving_iff.mp hreceiving with ⟨deadline, early, taken, r, hstage⟩
  have hintact := Reception.step_intact c.onlyFrom r bus
  have hnow := (Reception.step_still c.onlyFrom r bus).now
  -- The reception does all that happens on the wire; to settle the call takes no time.
  have hwork : (c.work id bus).2.wire = (r.step c.onlyFrom bus).2.wire ∧
      (c.work id bus).2.now = (r.step c.onlyFrom bus).2.now := by
    have hreceives : c.task.receives = true := by
      simpa only [Sound, hstage] using hsound
    simp only [work, hstage]
    split
    · rename_i r' bus' hstep
      rw [hstep]
      exact ⟨rfl, rfl⟩
    · rename_i bus' hstep
      have hsettles := lost_settles c taken bus'
      rw [hstep]
      split
      · exact ⟨hsettles.config.2, hsettles.now⟩
      · exact ⟨rfl, rfl⟩
    · rename_i result bus' hstep
      have hsettles := received_settles hreceives deadline early taken result bus'
      rw [hstep]
      exact ⟨hsettles.config.2, hsettles.now⟩
  rw [← hwork.1] at hintact
  rw [← hwork.2] at hnow
  rcases step_work id c bus with hstep | ⟨bus', e, hwaits, hstep⟩
  · rw [hstep]
    exact ⟨hintact, hnow⟩
  · rw [hwaits] at hintact hnow
    rw [hstep]
    exact ⟨hintact, hnow⟩

theorem exchanging_cases (hstage : c.stage.exchanging = true) :
    (∃ d, c.stage = .sending d) ∨ c.isReceiving = true := by
  unfold Stage.exchanging at hstage
  split at hstage
  · rename_i d hsending
    exact Or.inl ⟨d, hsending⟩
  · rename_i deadline early taken r hreceiving
    exact Or.inr (isReceiving_iff.mpr ⟨deadline, early, taken, r, hreceiving⟩)
  · exact absurd hstage Bool.false_ne_true

/-- At other stages a turn takes nothing that is to be read from a quiet
    wire, and begins its receptions at their start. -/
theorem step_elsewhere (hsound : c.Sound) (hreceiving : c.isReceiving = false)
    (hquiet : bus.wire.Quiet) (id : Nat) :
    (c.step id bus).2.wire.arrivals = bus.wire.arrivals ∧
      ∀ c', c.after (c.step id bus).1 = some c' → c'.reception = .start := by
  by_cases hstage : c.stage.exchanging = true
  · rcases exchanging_cases hstage with ⟨d, hsending⟩ | hother
    · rcases step_sending hsending id bus with ⟨hwire, hafter⟩
      rw [hwire]
      exact ⟨(Drain.step_quiet hquiet d).1, hafter⟩
    · rw [hother] at hreceiving
      exact absurd hreceiving Bool.noConfusion
  · rcases (step_goes hsound id bus).apart_wire hstage with ⟨hwire, hafter⟩
    rw [hwire]
    exact ⟨rfl, hafter⟩

/-- A turn leaves what holds of the far end and of the rules of a wire: what
    it does itself, and what it leaves to its drain or its reception. -/
theorem step_keeps (hsound : c.Sound) (id : Nat) {P : Wire → Prop} (h : P bus.wire)
    (hintact : ∀ w, bus.wire.Intact w → P w) (hdrain : ∀ d : Drain, P (d.step bus).2.wire) :
    P (c.step id bus).2.wire := by
  by_cases hstage : c.stage.exchanging = true
  · rcases exchanging_cases hstage with ⟨d, hsending⟩ | hreceiving
    · rw [(step_sending hsending id bus).1]
      exact hdrain d
    · exact hintact _ (step_receiving hsound hreceiving id bus).1
  · rw [((step_goes hsound id bus).apart_wire hstage).1]
    exact h

theorem step_quiet (hsound : c.Sound) (id : Nat) (h : bus.wire.Quiet) :
    (c.step id bus).2.wire.Quiet :=
  step_keeps hsound id h (fun _ hintact => hintact.quiet h) fun d => (Drain.step_quiet h d).2

theorem step_obliging (hsound : c.Sound) (id : Nat) (h : bus.wire.Obliging) :
    (c.step id bus).2.wire.Obliging :=
  step_keeps hsound id h (fun _ hintact => hintact.obliging h) fun d => (Drain.step_obliging h d).1

/-! ### What is lost -/

/-- A call that does not wait for a frame has nothing to lose. -/
theorem abandons_of_not_receiving (h : c.isReceiving = false) : c.abandons id bus = [] := by
  unfold abandons
  split
  · rw [reception_of_not_receiving h]
    rfl
  · rfl

/-- A call that waits on, or hears its frame, loses nothing. -/
theorem abandons_of_receiving (hafter : c.after (c.step id bus).1 = some c')
    (hreceiving : c'.isReceiving = true) : c.abandons id bus = [] := by
  rw [abandons, hafter, Option.all_some, hreceiving, Bool.not_true, Bool.and_false,
    if_neg Bool.false_ne_true]

theorem abandons_of_heard {result : Reception.Result} (h : c.heard bus = some result) :
    c.abandons id bus = [] := by
  rw [abandons, h, Option.isNone_some, Bool.false_and, if_neg Bool.false_ne_true]

/-- A call that gives up loses what it has taken. -/
theorem abandons_of_leaves (hheard : c.heard bus = none)
    (hafter : ∀ c', c.after (c.step id bus).1 = some c' → c'.isReceiving = false) :
    c.abandons id bus = c.reception.got := by
  rw [abandons, hheard, Option.isNone_none, Bool.true_and, if_pos]
  cases hcall : c.after (c.step id bus).1 with
  | none => rfl
  | some c' =>
      rw [Option.all_some, hafter c' hcall]
      rfl

end Call

end Multidrop
