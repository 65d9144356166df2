import Multidrop.Proofs.Call.Cuts
import Multidrop.Proofs.Ledger

/-!
# How Calls Fail

What goes wrong in an exchange is the fault of the wire, or of a frame that
cannot be sent or makes no sense. An error that passes is kept from the caller:
it counts as an answer that was lost. So apart from a request that could not be
built, and from taking frames as they come, a call that fails has met such a
fault, or its time is up.

A frame that cannot be sent is found out at one turn only, that at which the
call has got the lock. At all others, and at that one too if its frames are fit
to be sent, a call fails because of what the wire does and brings.

## Main definitions

* `Link.Error.isFault`: An error of the wire or of a frame.
* `Link.Error.isOfWire`: An error of the wire, or of a number that came over
  it.
* `Call.FaultsOnly`, `Call.WireOnly`: A turn fails with such an error, if it
  fails.

## Theorems

* `Reception.step_error`: How a reception fails.
* `Call.work_wire`: How a call fails on its own whose frames can be sent.
* `Call.work_faults`: How any call fails on its own.
* `Call.step_wire`, `Call.step_error`: The same with the time of the call.
-/

namespace Multidrop

/-- An error of the wire or of a frame, and not one of a request or of time. -/
def Link.Error.isFault : Link.Error → Bool
  | .transport _ => true
  | .frame _ => true
  | _ => false

/-- An error of the wire, or of a number that came over it and is none. -/
def Link.Error.isOfWire : Link.Error → Bool
  | .transport _ => true
  | .frame (.varuint _) => true
  | _ => false

theorem Link.Error.isFault_of_isOfWire {e : Link.Error} (h : e.isOfWire = true) :
    e.isFault = true := by
  unfold isOfWire at h
  split at h
  · rfl
  · rfl
  · exact absurd h Bool.false_ne_true

theorem Drain.step_error {d : Drain} {bus : Bus} {e : Link.Error}
    (h : (d.step bus).1 = .over (.error e)) : e.isOfWire = true := by
  -- Three exits are errors, and each is one of the wire by its constructor.
  have hfault : ∀ {e' : Link.Error}, e'.isOfWire = true →
      (Turn.over (Except.error e') : Turn Drain (Except Link.Error Unit)) = .over (.error e) →
      e.isOfWire = true := by
    intro e' hfault heq
    rw [Turn.over.injEq, Except.error.injEq] at heq
    exact heq ▸ hfault
  cases d with
  | starting => cases h
  | sending =>
      rw [step] at h
      split at h
      · cases h
      · unfold offer at h
        split at h
        · cases h
        · split at h
          · cases h
          · exact hfault rfl h
        · exact hfault rfl h
        · cases h
  | flushing =>
      rw [step, flush] at h
      split at h
      · cases h
      · split at h
        · cases h
        · exact hfault rfl h
      · cases h

namespace Reception

variable {r : Reception} {bus : Bus} {e : Link.Error}

theorem giveUp_error {reason : Link.ResyncReason} (h : (giveUp reason bus).1 = .over (.error e)) :
    e.isOfWire = true ∨ e.isTransient = true := by
  rw [giveUp, resynchronize] at h
  split at h
  · rw [Turn.over.injEq, Except.error.injEq] at h
    exact Or.inl (h ▸ rfl)
  · rw [Turn.over.injEq, Except.error.injEq] at h
    exact Or.inr (h ▸ rfl)

/-- A frame that was there whole is refused for its checksum only, and that
    passes. -/
theorem close_error {onlyFrom : Option UInt8} {p : Frame.Form}
    (haccepted : p.Accepted bus.link.config.limits)
    (h : (close onlyFrom p.bytes bus).1 = .error e) : e.isTransient = true := by
  rw [(close_form onlyFrom haccepted).1, answerTo] at h
  rcases p.verdict_cases bus.link.config.limits with hverdict | hverdict
  · rw [hverdict] at h
    cases h
  · rw [hverdict, Except.error.injEq] at h
    exact h ▸ rfl

/-- A reception fails because of what the wire does and brings, or with an error
    that passes. -/
theorem step_error {onlyFrom : Option UInt8} (hsound : Sound bus.link.config.limits r)
    (h : (r.step onlyFrom bus).1 = .over (.error e)) :
    e.isOfWire = true ∨ e.isTransient = true := by
  have hmoves := step_moves onlyFrom hsound
  generalize r.step onlyFrom bus = turn at h hmoves
  cases hmoves with
  | waiting hread => exact absurd h nofun
  | interrupted hread hkind => exact absurd h nofun
  -- The wire failed or closed under the read: an error of the wire itself.
  | failed hread hkind =>
      rw [Turn.over.injEq, Except.error.injEq] at h
      exact Or.inl (h ▸ rfl)
  | closed hread =>
      rw [Turn.over.injEq, Except.error.injEq] at h
      exact Or.inl (h ▸ rfl)
  | bytes hread hturn hcomes =>
      cases hcomes with
      | again next hnext hgot => exact absurd h nofun
      -- The link is in order again, so this is the error that passes.
      | untrusted reason huntrusted => exact giveUp_error h
      | unreadable cause hunreadable =>
          rw [Turn.over.injEq, Except.error.injEq] at h
          exact Or.inl (h ▸ rfl)
      -- A whole frame is refused for its checksum alone, and that passes.
      | whole p haccepted htaken =>
          rw [Turn.over.injEq] at h
          exact Or.inr (close_error haccepted h)

end Reception

namespace Call

variable {id : Nat} {c c' : Call} {bus bus' : Bus} {client : Client} {e : Link.Error}

/-- A turn fails with a fault, if it fails. -/
def FaultsOnly (move : Move) : Prop :=
  ∀ client e, move.1 = .over (client, .error e) → e.isFault = true

/-- A turn fails because of what the wire does and brings, if it fails. -/
def WireOnly (move : Move) : Prop :=
  ∀ client e, move.1 = .over (client, .error e) → e.isOfWire = true

theorem WireOnly.faultsOnly {move : Move} (h : WireOnly move) : FaultsOnly move :=
  fun client e hmove => Link.Error.isFault_of_isOfWire (h client e hmove)

theorem eq_of_handOn {e' : Link.Error}
    (h : (c.handOn (.error e) bus).1 = .over (client, .error e')) : e' = e := by
  rw [handOn, finish, Turn.over.injEq, Prod.mk.injEq, Except.error.injEq] at h
  exact h.2.symm

theorem faultsOnly_handOn (c : Call) (bus : Bus) (h : e.isFault = true) :
    FaultsOnly (c.handOn (.error e) bus) :=
  fun _ _ heq => eq_of_handOn heq ▸ h

theorem faultsOnly_sendFrame (c : Call) (f : Frame) (bus : Bus) :
    FaultsOnly (c.sendFrame f bus) := by
  rw [sendFrame]
  split
  · exact faultsOnly_handOn c bus rfl
  · exact fun client e => nofun

theorem faultsOnly_enter (c : Call) (bus : Bus) (hrefuse : ∀ cause, c.task ≠ .refuse cause) :
    FaultsOnly (c.enter bus) := by
  rw [enter]
  split
  · rintro client e ⟨⟩
  · rintro client e ⟨⟩
  · rw [sendStream]
    split
    · exact faultsOnly_handOn _ _ rfl
    · rintro client e ⟨⟩
  · exact faultsOnly_sendFrame c _ bus
  · exact faultsOnly_sendFrame c _ bus
  · exact faultsOnly_sendFrame c _ bus
  · exact faultsOnly_sendFrame c _ bus
  · exact faultsOnly_sendFrame c _ bus
  · rename_i cause htask
    exact absurd htask (hrefuse cause)

theorem wireOnly_handOn (c : Call) (bus : Bus) (h : e.isOfWire = true) :
    WireOnly (c.handOn (.error e) bus) :=
  fun _ _ heq => eq_of_handOn heq ▸ h

theorem wireOnly_sent (c : Call) (bus : Bus) : WireOnly (c.sent bus) := by
  cases htask : c.task with
  | _ =>
      rw [sent, htask]
      exact fun client e => nofun

theorem wireOnly_endRound (c : Call) (taken : Nat) (bus : Bus) :
    WireOnly (c.endRound taken bus) := by
  unfold endRound
  split
  · exact fun client e => nofun
  · simp only
    split
    · exact fun client e => nofun
    · exact fun client e => nofun

theorem wireOnly_lost (c : Call) (taken : Nat) (bus : Bus) : WireOnly (c.lost taken bus) := by
  rw [lost]
  split
  · exact fun client e => nofun
  · exact wireOnly_endRound c taken bus

theorem wireOnly_takeFrame (c : Call) (taken : Nat) (f : Frame.Received) (bus : Bus) :
    WireOnly (c.takeFrame taken f bus) := by
  rw [takeFrame]
  split
  · rintro client e ⟨⟩
  · rw [takeReply]
    split
    · exact wireOnly_handOn c bus rfl
    · rintro client e ⟨⟩
  · rw [takeChunk]
    split
    · exact wireOnly_handOn c bus rfl
    · exact wireOnly_endRound c taken bus
    · simp only
      split
      · exact wireOnly_endRound c taken bus
      · split
        · rintro client e ⟨⟩
        · rintro client e ⟨⟩

/-- Errors that pass are kept from a call, unless it takes frames as they come. -/
theorem wireOnly_received (hreceive : ∀ source, c.task ≠ .receive source)
    {result : Reception.Result}
    (hresult : ∀ e, result = .error e → e.isOfWire = true ∨ e.isTransient = true)
    (deadline : Option Duration) (early : Bool) (taken : Nat) (bus : Bus) :
    WireOnly (c.received deadline early taken result bus) := by
  rw [received.eq_def]
  split
  · -- A frame for this call, a frame that passes by, or an error.
    exact wireOnly_takeFrame c taken _ bus
  · split
    · rename_i source htask
      exact absurd htask (hreceive source)
    · split
      · exact fun client e => nofun
      · exact wireOnly_lost c taken bus
  · rename_i e
    split
    · rename_i source htask
      exact absurd htask (hreceive source)
    · split
      · exact wireOnly_lost c taken bus
      · -- What does not pass is handed on, and that is of the wire.
        rename_i hlasting
        exact wireOnly_handOn c bus ((hresult e rfl).resolve_right hlasting)

/-- What a call does on its own fails only because of what the wire does and
    brings, unless it is at the turn at which it may find a frame that cannot be
    sent. -/
theorem work_wireOnly (hrefuse : ∀ cause, c.task ≠ .refuse cause)
    (hreceive : ∀ source, c.task ≠ .receive source)
    (hreception : c.reception.Sound bus.link.config.limits) (id : Nat)
    (henter : c.stage = .queued → WireOnly (c.enter bus)) :
    WireOnly (c.work id bus) := by
  cases hstage : c.stage with
  -- A fresh call fails when it is a refusal, which is excluded.
  | fresh =>
      rw [work, hstage]
      simp only
      unfold start
      split
      · rename_i cause htask
        exact absurd htask (hrefuse cause)
      · rw [enqueue]
        split
        · rintro client e ⟨⟩
        · rintro client e ⟨⟩
  -- What a call enters with is left to the hypothesis, since it depends on the frames.
  | queued =>
      simp only [work, hstage]
      split
      · exact henter hstage
      · rintro client e ⟨⟩
  -- A drain fails with the wire, and what follows a good one is no error at all.
  | sending d =>
      have hdrain := @Drain.step_error d bus
      rw [work_eq_afterDrain hstage]
      generalize d.step bus = move at hdrain ⊢
      rcases move with ⟨d' | _ | (e | ⟨⟩), left⟩
      · rintro client e ⟨⟩
      · rintro client e ⟨⟩
      · exact wireOnly_handOn c left (hdrain rfl)
      · exact wireOnly_sent c left
  | receiving deadline early taken r =>
      rw [reception, hstage] at hreception
      have herror := @Reception.step_error r bus
      rw [work_eq_afterReception hstage]
      generalize c.onlyFrom = onlyFrom
      rcases hstep : r.step onlyFrom bus with ⟨r' | _ | result, left⟩
      · rintro client e ⟨⟩
      · rw [afterReception]
        split
        · exact wireOnly_lost c taken left
        · rintro client e ⟨⟩
      · refine wireOnly_received hreceive ?_ deadline early taken left
        intro e hresult
        exact herror hreception (by rw [hstep, hresult])
  | pausing moment =>
      simp only [work, hstage]
      split
      · rintro client e ⟨⟩
      · rintro client e ⟨⟩

/-- A call whose frames can be sent fails on its own only because of what the
    wire does and brings. -/
theorem work_wire (hrefuse : ∀ cause, c.task ≠ .refuse cause)
    (hreceive : ∀ source, c.task ≠ .receive source)
    (hreception : c.reception.Sound bus.link.config.limits)
    (hfits : ∀ f ∈ c.task.frames bus.link c.client, f.Fits) (id : Nat) :
    WireOnly (c.work id bus) := by
  refine work_wireOnly hrefuse hreceive hreception id fun _ => ?_
  rw [enter_of_fits hrefuse hfits]
  exact fun client e => nofun

/-- What a call does on its own fails only because of the wire or of a frame. -/
theorem work_faults (hrefuse : ∀ cause, c.task ≠ .refuse cause)
    (hreceive : ∀ source, c.task ≠ .receive source)
    (hreception : c.reception.Sound bus.link.config.limits) (id : Nat) :
    FaultsOnly (c.work id bus) := by
  by_cases hstage : c.stage = .queued
  · simp only [work, hstage]
    split
    · exact faultsOnly_enter c bus hrefuse
    · rintro client e ⟨⟩
  · exact (work_wireOnly hrefuse hreceive hreception id fun h => absurd h hstage).faultsOnly

/-- A call fails as it does on its own, or because its time is up. -/
theorem step_of_work {P : Link.Error → Prop}
    (hwork : ∀ client e, (c.work id bus).1 = .over (client, .error e) → P e)
    (hstep : c.step id bus = (.over (client, .error e), bus')) :
    P e ∨ ∃ limit, e = .timeout limit ∧ c.limit = some limit ∧ c.started + limit ≤ bus'.now := by
  rw [step] at hstep
  -- The time of a call counts only where the call would have to wait.
  split at hstep
  · rename_i left hwaiting
    split at hstep
    · cases congrArg Prod.fst hstep
    · rename_i limit hlimit
      split at hstep
      · rename_i hup
        rw [finish, Prod.mk.injEq, Turn.over.injEq, Prod.mk.injEq, Except.error.injEq] at hstep
        rw [← hstep.2]
        exact Or.inr ⟨limit, hstep.1.2.symm, hlimit, hup⟩
      · cases congrArg Prod.fst hstep
  · exact Or.inl (hwork client e (congrArg Prod.fst hstep))

/-- A call whose frames can be sent fails because of what the wire does and
    brings, or because its time is up. -/
theorem step_wire (hrefuse : ∀ cause, c.task ≠ .refuse cause)
    (hreceive : ∀ source, c.task ≠ .receive source)
    (hreception : c.reception.Sound bus.link.config.limits)
    (hfits : ∀ f ∈ c.task.frames bus.link c.client, f.Fits)
    (hstep : c.step id bus = (.over (client, .error e), bus')) :
    e.isOfWire = true ∨
      ∃ limit, e = .timeout limit ∧ c.limit = some limit ∧ c.started + limit ≤ bus'.now :=
  step_of_work (work_wire hrefuse hreceive hreception hfits id) hstep

/-- A call fails because of the wire or of a frame, or because its time is
    up. -/
theorem step_error (hrefuse : ∀ cause, c.task ≠ .refuse cause)
    (hreceive : ∀ source, c.task ≠ .receive source)
    (hreception : c.reception.Sound bus.link.config.limits)
    (hstep : c.step id bus = (.over (client, .error e), bus')) :
    e.isFault = true ∨
      ∃ limit, e = .timeout limit ∧ c.limit = some limit ∧ c.started + limit ≤ bus'.now :=
  step_of_work (work_faults hrefuse hreceive hreception id) hstep

end Call

end Multidrop
