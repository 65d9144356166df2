import Multidrop.Proofs.Link.Resync

/-!
# Noise

Whatever bytes arrive, a stream that flows is taken apart from the front into
three kinds of pieces: frames, headers that cannot be trusted with what is
thrown away behind them, and headers with a length that is no number. Each
answered call has taken one piece. `Judged` is this chain, and says what the
answer to each piece is.

A frame is delivered, dropped, or refused for its checksum, and a header that
cannot be trusted is given up. What follows either is heard, since these errors
pass. A length that is no number is the one kind of noise whose error does not
pass, and nothing is thrown away behind it.

## Main definitions

* `Judged`: What calls come to on a stream that flows, piece by piece.

## Theorems

* `Answered.judged`: Calls that are answered have taken such pieces.
* `Judged.transient_or_unreadable`: Errors that do not pass are about a length
  that is no number.
* `Listener.judges_noise`: Every run is such a chain.
-/

namespace Multidrop

/-- What calls for frames come to on a stream that flows, piece by piece, and
    what they leave of it. -/
inductive Judged (config : Link.Config) :
    List (Option UInt8) → List UInt8 → List Reception.Result → List UInt8 → Prop where
  | nil (bytes : List UInt8) : Judged config [] bytes [] bytes
  | whole {onlyFrom : Option UInt8} {calls : List (Option UInt8)} {next left : List UInt8}
      {results : List Reception.Result} (p : Frame.Form) (h : p.Accepted config.limits)
      (hrest : Judged config calls next results left) :
      Judged config (onlyFrom :: calls) (p.bytes ++ next)
        (Reception.answerTo config.limits onlyFrom p :: results) left
  | untrusted {onlyFrom : Option UInt8} {calls : List (Option UInt8)}
      {header next left : List UInt8} {results : List Reception.Result}
      {reason : Link.ResyncReason} (discarded : List UInt8)
      (h : Reception.Untrusted config.limits header reason)
      (hwindow : discarded.length ≤ config.resyncWindow)
      (hrest : Judged config calls next results left) :
      Judged config (onlyFrom :: calls) (header ++ (discarded ++ next))
        (.error (.resynchronized reason discarded.length) :: results) left
  | unreadable {onlyFrom : Option UInt8} {calls : List (Option UInt8)}
      {header next left : List UInt8} {results : List Reception.Result} {cause : Varuint.Error}
      (h : Reception.Unreadable header cause) (hrest : Judged config calls next results left) :
      Judged config (onlyFrom :: calls) (header ++ next)
        (.error (.frame (.varuint cause)) :: results) left

/-- The most that the answers say was thrown away at once. -/
def Within (window : Nat) (results : List Reception.Result) : Prop :=
  ∀ reason count, .error (.resynchronized reason count) ∈ results → count ≤ window

variable {config : Link.Config} {calls : List (Option UInt8)} {bytes left : List UInt8}
  {results : List Reception.Result}

/-- Calls that are answered as a reader would have it have taken such pieces. By
    induction on the calls, and by what a reader makes of what is there. -/
theorem Answered.judged (h : Answered config.limits calls bytes results left)
    (hwithin : Within config.resyncWindow results) :
    Judged config calls bytes results left := by
  induction h with
  | nil bytes => exact .nil bytes
  | @cons onlyFrom calls bytes next left result results hfirst hrest ih =>
      have hlater : Judged config calls next results left :=
        ih fun reason count hmem => hwithin reason count (List.mem_cons_of_mem _ hmem)
      cases Frame.decodes config.limits bytes with
      -- By what the bytes in front are: a frame, a part of one, or a header that is refused.
      | whole p rest hbytes haccepted =>
          rw [hbytes, Reception.answers_form haccepted] at hfirst
          rw [hbytes, hfirst.1, ← hfirst.2]
          exact .whole p haccepted hlater
      | incomplete hincomplete =>
          -- A call that has not taken a whole frame is not answered yet.
          have hnone := Frame.decode_incomplete hincomplete
          exact absurd (congrArg Prod.fst hnone) hfirst.decode_ne_none
      | refused e hrefused =>
          rcases Reception.refused_cases hrefused with
            ⟨header, rest, hbytes, ⟨reason, huntrusted⟩ | ⟨cause, hunreadable⟩⟩
          · rw [hbytes, Reception.answers_untrusted huntrusted] at hfirst
            rcases hfirst with ⟨discarded, hresult, hrest'⟩
            rw [hbytes, hresult, hrest']
            refine .untrusted discarded huntrusted (hwithin reason _ ?_) hlater
            rw [hresult]
            exact List.mem_cons_self
          · rw [hbytes, Reception.answers_unreadable hunreadable] at hfirst
            rw [hbytes, hfirst.1, ← hfirst.2]
            exact .unreadable hunreadable hlater

/-- What is answered to a whole frame is no error, or one that passes. -/
theorem Reception.answerTo_transient {limits : Frame.Limits} {onlyFrom : Option UInt8}
    {p : Frame.Form} {e : Link.Error} (h : .error e = answerTo limits onlyFrom p) :
    e.isTransient = true := by
  rw [answerTo] at h
  rcases p.verdict_cases limits with hverdict | hverdict
  · rw [hverdict] at h
    simp only [reduceCtorEq] at h
  · rw [hverdict] at h
    rw [Except.error.inj h, Link.Error.isTransient]

/-- An error that does not pass is about a length in the stream that is no
    number. By induction on the pieces. -/
theorem Judged.transient_or_unreadable (h : Judged config calls bytes results left)
    {e : Link.Error} (he : .error e ∈ results) :
    e.isTransient = true ∨
      ∃ header cause, Reception.Unreadable header cause ∧ header <:+: bytes ∧
        e = .frame (.varuint cause) := by
  induction h with
  | nil bytes => exact absurd he List.not_mem_nil
  | whole p haccepted hrest ih =>
      rcases List.mem_cons.mp he with hfirst | hlater
      · exact Or.inl (Reception.answerTo_transient hfirst)
      · refine (ih hlater).imp_right ?_
        rintro ⟨header, cause, hunreadable, hinfix, hcause⟩
        exact ⟨header, cause, hunreadable, hinfix.trans (List.suffix_append _ _).isInfix, hcause⟩
  -- A header that was given up for is an error that passes.
  | untrusted discarded huntrusted hwindow hrest ih =>
      rcases List.mem_cons.mp he with hfirst | hlater
      · rw [Except.error.inj hfirst, Link.Error.isTransient]
        exact Or.inl rfl
      · refine (ih hlater).imp_right ?_
        rintro ⟨header, cause, hunreadable, hinfix, hcause⟩
        refine ⟨header, cause, hunreadable, hinfix.trans ?_, hcause⟩
        rw [← List.append_assoc]
        exact (List.suffix_append _ _).isInfix
  | @unreadable onlyFrom calls header next left results cause hunreadable hrest ih =>
      rcases List.mem_cons.mp he with hfirst | hlater
      · exact Or.inr ⟨header, cause, hunreadable, (List.prefix_append _ _).isInfix,
          Except.error.inj hfirst⟩
      · refine (ih hlater).imp_right ?_
        rintro ⟨header, cause, hunreadable, hinfix, hcause⟩
        exact ⟨header, cause, hunreadable, hinfix.trans (List.suffix_append _ _).isInfix, hcause⟩

namespace Listener

variable {l : Listener}

theorem turn_within (hsound : l.reception.Sound l.bus.link.config.limits)
    (h : Within l.bus.link.config.resyncWindow l.results) :
    Within l.bus.link.config.resyncWindow l.turn.results := by
  rw [turn]
  split
  · exact h
  · rename_i onlyFrom calls hcalls
    rcases hstep : l.reception.step onlyFrom l.bus with ⟨_ | _ | result, bus⟩
    · exact h
    · exact h
    · intro reason count hmem
      rcases List.mem_append.mp hmem with hearlier | hlast
      · exact h reason count hearlier
      · rw [← List.mem_singleton.mp hlast] at hstep
        exact Reception.step_within hsound hstep

/-- No answer of a run says that more than the window was thrown away, whatever
    is on the wire. By induction on what is done. -/
theorem run_within {config : Link.Config} (hconfig : l.bus.link.config = config)
    (hsound : l.reception.Sound config.limits) (h : Within config.resyncWindow l.results)
    (actions : List Action) : Within config.resyncWindow (l.run actions).results := by
  induction actions generalizing l with
  | nil => exact h
  | cons a actions ih =>
      cases a with
      | turn =>
          rw [← hconfig] at hsound h
          rcases turn_sound hsound with ⟨hconfig', hsound'⟩
          have hwithin := turn_within hsound h
          rw [hconfig] at hsound' hwithin
          exact ih (hconfig'.trans hconfig) hsound' hwithin
      | outside changed more => exact ih hconfig hsound h

/-- On a stream that flows, the calls that have been answered have taken one
    piece of it each: a frame, which is delivered, dropped or refused for its
    checksum; a header that cannot be trusted, with no more than the window
    behind it; or a header with a length that is no number, and nothing else.
    What is left is what the call under way has taken and what is still to be
    read.

    So an error passes, unless there is such a length in the stream and the
    error is about it. -/
theorem judges_noise (bus : Bus) (calls : List (Option UInt8)) (actions : List Action)
    (h : Arrivals.Flow (bus.wire.arrivals ++ actions.flatMap Action.brings)) :
    let config := bus.link.config
    let stream := Arrivals.bytes (bus.wire.arrivals ++ actions.flatMap Action.brings)
    let l := (start bus calls).run actions
    (∃ done, calls = done ++ l.calls ∧
      Judged config done stream l.results (l.reception.got ++ l.bus.wire.coming)) ∧
    ∀ e, .error e ∈ l.results → e.isTransient = true ∨
      ∃ header cause, Reception.Unreadable header cause ∧ header <:+: stream ∧
        e = .frame (.varuint cause) := by
  intro config stream l
  rcases Arrivals.flow_append.mp h with ⟨hfirst, hlater⟩
  have hkept : Kept config.limits calls stream l := by
    have hrun := run_kept (kept_start hfirst calls) hlater
    rw [Wire.coming, ← Arrivals.bytes_append] at hrun
    exact hrun
  -- Whatever was thrown away at once is no more than the window.
  have hwithin : Within config.resyncWindow l.results :=
    run_within rfl (Reception.sound_start _)
      (fun reason count hmem => absurd hmem List.not_mem_nil) actions
  rcases hkept.answered with ⟨done, hcalls, hanswered⟩
  have hjudged := hanswered.judged hwithin
  exact ⟨⟨done, hcalls, hjudged⟩, fun e he => hjudged.transient_or_unreadable he⟩

/-- Four bytes without the magic are given up with the two behind them. -/
theorem judges_noise_six_bytes :
    let bus : Bus := { wire := { arrivals := [(0, .data 0 [1, 2]), (0, .data 3 [0xaa, 0xbb])] } }
    let l := (start bus [none]).run [.turn, .turn]
    Judged bus.link.config [none] [0, 1, 2, 3, 0xaa, 0xbb] l.results [] ∧
      l.results = [.error (.resynchronized (.badMagic 0x0100) 2)] := by
  intro bus l
  have hflow : Arrivals.Flow (bus.wire.arrivals ++ [.turn, .turn].flatMap Action.brings) := by
    decide
  have hcalls : l.calls = [] := by decide +kernel
  have hleft : l.reception.got ++ l.bus.wire.coming = [] := by decide +kernel
  rcases judges_noise bus [none] [.turn, .turn] hflow with ⟨⟨done, hdone, hjudged⟩, _⟩
  rw [hcalls, List.append_nil] at hdone
  rw [hleft, ← hdone] at hjudged
  exact ⟨hjudged, by decide +kernel⟩

/-- A length of 34359738367 bytes ends a call with an error that does not pass,
    and what stands behind it is left. -/
theorem length_out_of_range_not_transient :
    let bus : Bus := { wire := { arrivals := [
      (0, .data 0x54 [0xab, 5, 0, 0xff, 0xff, 0xff, 0xff, 0x7f, 0x68, 0x69])] } }
    let e : Link.Error := .frame (.varuint (.outOfRange 34359738367))
    let l := (start bus [none]).run (List.replicate 6 .turn)
    bus.wire.arrivals.Flow ∧ l.results = [.error e] ∧ e.isTransient = false ∧
      l.bus.wire.coming = [0x68, 0x69] := by
  decide +kernel

end Listener

end Multidrop
