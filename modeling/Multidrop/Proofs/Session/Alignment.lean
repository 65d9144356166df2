import Multidrop.Proofs.Session.Receiving

/-!
# Frames Heard in Order

On a wire that carries a run of frames, calls that run out of time do no harm
as long as they do so between two frames. Every reception then begins where a
frame begins, each frame is heard once, in its turn, by whoever holds the lock,
and what has come of the next one is still there, be it with a call that waits
for the rest or on the wire. A frame that has come whole is heard as soon as
a call that waits for it takes its turns.

A call that runs out of time in the middle of a frame takes along what it has
read of it. The rest of the frame stays on the wire, where the next reception
takes it for the beginning of a frame.

## Theorems

* `Aligned.heard_forms`: What was heard on a run of frames, and what is left.
* `Listening.hears_next`: A frame that has come whole is heard.
* `frames_in_order`: Frames are heard in order, unless one is abandoned.
* `resynchronized_after_timeout`: What becomes of one that is.
-/

namespace Multidrop

namespace Answered

variable {limits : Frame.Limits} {calls : List (Option UInt8)} {stream left : List UInt8}
  {results : List Reception.Result} {forms : List Frame.Form}

/-- A run of frames answers no more calls than there are frames. By induction
    on the calls. -/
theorem length_le (h : Answered limits calls (forms.flatMap Frame.Form.bytes) results left)
    (haccepted : ∀ p ∈ forms, p.Accepted limits) : calls.length ≤ forms.length := by
  generalize hstream : forms.flatMap Frame.Form.bytes = stream at h
  induction h generalizing forms with
  | nil bytes => exact Nat.zero_le _
  | @cons onlyFrom calls bytes next left result results hfirst hrest ih =>
      cases forms with
      | nil =>
          rw [← hstream] at hfirst
          exact absurd (congrArg Prod.fst (Frame.decode_nil limits)) hfirst.decode_ne_none
      | cons p forms =>
          have hp := haccepted p List.mem_cons_self
          rw [← hstream, List.flatMap_cons, Reception.answers_form hp] at hfirst
          rw [List.length_cons, List.length_cons]
          exact Nat.succ_le_succ
            (ih (fun q hq => haccepted q (List.mem_cons_of_mem _ hq)) hfirst.2.symm)

/-- The answers to a part of a run of frames. -/
theorem forms_of_prefix (h : Answered limits calls stream results left)
    (haccepted : ∀ p ∈ forms, p.Accepted limits)
    (hpart : stream <+: forms.flatMap Frame.Form.bytes) :
    calls.length ≤ forms.length ∧
      results = List.zipWith (Reception.answerTo limits) calls forms ∧
      stream = (forms.take calls.length).flatMap Frame.Form.bytes ++ left := by
  rcases hpart with ⟨missing, hstream⟩
  have hwhole := h.append missing
  rw [hstream] at hwhole
  have hlength := hwhole.length_le haccepted
  rcases hwhole.forms haccepted (List.append_nil _).symm hlength with ⟨hresults, hleft⟩
  refine ⟨hlength, hresults, ?_⟩
  rw [List.append_nil] at hleft
  -- What is missing of the run is missing of what is left as well.
  refine List.append_cancel_right (?_ : _ ++ missing = _ ++ missing)
  rw [hstream, List.append_assoc, hleft, ← List.flatMap_append, List.take_append_drop]

end Answered

/-- A frame with a checksum that matches is answered whatever is done about
    others. -/
theorem Reception.answerTo_of_crc (limits : Frame.Limits) (onlyFrom : Option UInt8)
    {p : Frame.Form} (h : p.crc = p.computed) :
    answerTo limits onlyFrom p = .ok (deliver onlyFrom p.frame) := by
  rw [answerTo, Frame.Form.verdict, if_pos h]
  cases limits.crcPolicy with
  | ignore => rfl
  | enforce => rfl

namespace Session

variable {s : Session} {limits : Frame.Limits} {stream : List UInt8} {forms : List Frame.Form}
  {id : Nat} {e : Errand}

/-- What was heard on a run of frames are the frames in their order, each as it
    is delivered to the one who heard it, and what they have left is there. -/
theorem Aligned.heard_forms (h : Aligned limits stream s)
    (hforms : ∀ p ∈ forms, p.Accepted limits ∧ p.crc = p.computed)
    (hstream : stream <+: forms.flatMap Frame.Form.bytes) :
    (heard s.log).length ≤ forms.length ∧
      (∀ (n who : Nat) (result : Reception.Result), (heard s.log)[n]? = some (who, result) →
        ∃ (c : Client) (p : Frame.Form), s.clients[who]? = some c ∧
          forms[n]? = some p ∧ result = .ok (Reception.deliver (some c.destination) p.frame)) ∧
      stream = (forms.take (heard s.log).length).flatMap Frame.Form.bytes ++
        (s.reception.got ++ s.bus.wire.coming) := by
  have hlength : s.expected.length = (heard s.log).length := List.length_map _
  rcases h.answered.forms_of_prefix (fun p hp => (hforms p hp).1) hstream with
    ⟨hle, hresults, hleft⟩
  rw [hlength] at hle hleft
  refine ⟨hle, ?_, hleft⟩
  intro n who result hentry
  -- The results so far are the answers to as many frames of the stream.
  have hresult : (List.zipWith (Reception.answerTo limits) s.expected forms)[n]? =
      some result := by
    rw [← hresults, List.getElem?_map, hentry, Option.map_some]
  rcases List.getElem?_zipWith_eq_some.mp hresult with ⟨onlyFrom, p, hexpected, hp, hanswer⟩
  rcases h.known _ (List.mem_of_getElem? hentry) with ⟨c, hc⟩
  rw [Session.expected, List.getElem?_map, hentry, Option.map_some, hc, Option.map_some,
    Option.some.injEq] at hexpected
  refine ⟨c, p, hc, hp, ?_⟩
  rw [← hanswer, ← hexpected]
  exact Reception.answerTo_of_crc limits _ (hforms p (List.mem_of_getElem? hp)).2

/-- What a reception has read is no frame yet, so it does not wait in vain where
    there is one. -/
theorem Listening.coming_ne_nil (h : Listening s)
    (hwhole : (Frame.decode s.bus.link.config.limits
      (s.reception.got ++ s.bus.wire.coming)).1 ≠ .ok none) : s.bus.wire.arrivals ≠ [] := by
  intro hnone
  refine hwhole ?_
  rw [Wire.coming, hnone]
  exact congrArg Prod.fst (Frame.decode_incomplete
    (show Frame.Incomplete _ (s.reception.got ++ []) by
      rw [List.append_nil]
      exact h.sound.incomplete))

/-- A frame that has come whole is heard once a call that waits for it takes
    its turns. By induction on the number of reads that are left. -/
theorem Listening.hears_next (h : Listening s) (hid : s.errand? id = some e)
    (hreceiving : e.call.isReceiving = true) (hdue : s.bus.wire.arrivals.Due s.bus.now)
    (hwhole : (Frame.decode s.bus.link.config.limits
      (s.reception.got ++ s.bus.wire.coming)).1 ≠ .ok none) :
    ∃ k, s.Calm (List.replicate k (.turn id)) ∧
      (heard (s.run (List.replicate k (.turn id))).log).length = (heard s.log).length + 1 := by
  induction hreads : s.bus.wire.arrivals.reads using Nat.strongRecOn generalizing s e with
  | ind reads ih =>
    have hact := act_turn hid
    have habandons := abandons_turn hid
    have hreception := h.kept.reception_eq hid (exchanging_of_receiving hreceiving)
    have hsound := h.sound
    rw [hreception] at hsound
    have hcall := h.kept.sound id e hid
    have hidle := h.coming_ne_nil hwhole
    have hlistening := (turn_reads_of_receiving h hid hreceiving).2
    rcases Call.step_receives hcall hreceiving hsound h.flow id with
      ⟨taken, hheard, hafter, hgoes, hnext, hgot, hgives, hfewer⟩ |
      ⟨result, hheard, hafter, hflow, hanswers⟩ | ⟨hheard, hafter, harrivals, hnothing⟩
    · -- The call has read on, and the frame is still to be heard.
      rename_i c'
      have hless := hfewer.resolve_right fun hnone => hidle (hnone hdue)
      have hself : (s.turn id e).errand? id = some { e with call := c' } := by
        rw [errand_turn_self hid, hafter]
        rfl
      have hlater : (s.turn id e).bus.wire.arrivals.Due (s.turn id e).bus.now := by
        have hnow : (s.turn id e).bus.now = s.bus.now :=
          (Call.step_receiving hcall hreceiving id s.bus).2
        rw [hnow]
        exact hgives.due _ hdue
      have hbytes : (s.turn id e).reception.got ++ (s.turn id e).bus.wire.coming =
          s.reception.got ++ s.bus.wire.coming := by
        have hcoming : s.bus.wire.coming = taken ++ (s.turn id e).bus.wire.coming := hgives.bytes
        rw [hlistening.kept.reception_eq hself (exchanging_of_receiving hgoes), hgot, hcoming,
          hreception, List.append_assoc]
      have hconfig := (Does.turn hid).link_config h.kept
      rcases ih _ (hreads ▸ hless) hlistening hself hgoes hlater
        (by rw [hconfig, hbytes]; exact hwhole) rfl with ⟨k, hcalm, hlength⟩
      refine ⟨k + 1, ⟨trivial, ?_, ?_⟩, ?_⟩
      · rw [habandons, Call.abandons_of_receiving hafter hgoes]
      · rw [hact]
        exact hcalm
      · have hrun : s.run (List.replicate (k + 1) (.turn id)) =
            (s.turn id e).run (List.replicate k (.turn id)) := by
          rw [← hact]
          rfl
        rw [hrun, hlength, heard_turn, hheard]
        simp only [Option.map_none, Option.toList_none, List.append_nil]
    · -- The call has heard the frame at this turn.
      refine ⟨1, ⟨trivial, ?_, trivial⟩, ?_⟩
      · rw [habandons, Call.abandons_of_heard hheard]
      · have hrun : s.run (List.replicate 1 (.turn id)) = s.turn id e := hact
        rw [hrun, heard_turn, hheard, List.length_append]
        rfl
    · -- A call gives up only when nothing is left that is due, and a frame is.
      exact absurd (hnothing hdue) hidle

/-- Whoever clients are and whatever they are asked to do: on a wire that
    receives a run of frames with checksums that match, at whatever times and
    in whatever pieces, each frame is heard once and in its turn, as it is
    delivered to the one who hears it, as long as no call gives up or is
    dropped in the middle of a frame. What has arrived are the frames that
    were heard, what has been read of the next one, and what is still to come,
    so every reception begins where a frame begins. A frame that has come
    whole is heard once a call that waits for it takes its turns.

    A call that gives up in the middle of a frame after that hears nothing, and
    what it has read of the frame is missing from what is still to come. -/
theorem frames_in_order (config : Link.Config) (actions : List Action) (forms : List Frame.Form)
    (hcalm : (start config).Calm actions)
    (hforms : ∀ p ∈ forms, p.Accepted config.limits ∧ p.crc = p.computed)
    (hreceived : (start config).received actions <+: forms.flatMap Frame.Form.bytes) :
    let s := (start config).run actions
    let stream := (start config).received actions
    let n := (heard s.log).length
    (∀ (i who : Nat) (result : Reception.Result), (heard s.log)[i]? = some (who, result) →
      ∃ (c : Client) (p : Frame.Form), s.clients[who]? = some c ∧
        forms[i]? = some p ∧ result = .ok (Reception.deliver (some c.destination) p.frame)) ∧
    stream = (forms.take n).flatMap Frame.Form.bytes ++
      (s.reception.got ++ s.bus.wire.coming) ∧
    (∀ id e, s.errand? id = some e → e.call.isReceiving = true →
      s.reception = e.call.reception ∧
      (s.bus.wire.arrivals.Due s.bus.now → ∀ p, forms[n]? = some p →
        p.bytes <+: s.reception.got ++ s.bus.wire.coming →
          ∃ k, s.Calm (List.replicate k (.turn id)) ∧
            (heard (s.run (List.replicate k (.turn id))).log).length = n + 1)) ∧
    (∀ a, s.Extends a → s.abandons a ≠ [] →
      heard (s.act a).log = heard s.log ∧ (s.act a).reception = .start ∧
        stream = (forms.take n).flatMap Frame.Form.bytes ++
          (s.abandons a ++ (s.act a).bus.wire.coming)) := by
  intro s stream n
  have haligned : Aligned config.limits stream s := run_aligned (aligned_start config) hcalm
  rcases haligned.heard_forms hforms hreceived with ⟨_, hheard, hleft⟩
  refine ⟨hheard, hleft, ?_, ?_⟩
  · intro id e hid hreceiving
    refine ⟨haligned.listening.kept.reception_eq hid (exchanging_of_receiving hreceiving), ?_⟩
    intro hdue p hp hwhole
    refine haligned.listening.hears_next hid hreceiving hdue ?_
    rcases hwhole with ⟨rest, hrest⟩
    rw [haligned.config, ← hrest]
    exact (hforms p (List.mem_of_getElem? hp)).1.decode_ne_none rest
  · intro a hextends hlost
    -- A call that hears loses nothing, so this action only passed something by.
    cases (act_reads haligned.listening hextends).1 with
    | passes hsame hbytes hstart =>
        have hnone : Arrivals.bytes (s.brings a) = [] := by
          -- What is lost is not lost to what arrives.
          cases a with
          | outside now wire => exact absurd rfl hlost
          | _ => rfl
        rw [hnone, List.append_nil, hstart hlost] at hbytes
        refine ⟨hsame, hstart hlost, ?_⟩
        rw [hleft, hbytes]
        rfl
    | hears hc hmore hanswers hstart hnone hkept => exact absurd hkept hlost

/-- A read runs out of time before anything has come. The next one hears the
    frame that comes in two pieces, and what has come of the one after that is
    there. -/
theorem frames_in_order_two_pieces :
    let f : Frame := { source := 5, destination := 0, payload := [0x41, 1, 3, 0x68, 0x69, 0x21] }
    let arrivals : Arrivals := [(.ofMillis 40, .data 0x54 [0xab, 5, 0, 6, 0x41, 1, 3]),
      (.ofMillis 60, .data 0x68 [0x69, 0x21, 0xf2, 0xcd, 0x54, 0xab])]
    let actions : List Action := [.create 5 {}, .call 0 (.read 2) (some (.ofMillis 30))] ++
      List.replicate 6 (.turn 0) ++ [.outside (.ofMillis 30) { arrivals }, .turn 0,
      .call 0 (.read 2) none] ++ List.replicate 6 (.turn 1) ++
      [.outside (.ofMillis 60) { arrivals }] ++ List.replicate 5 (.turn 1)
    let s := (start {}).run actions
    heard s.log = [(0, .ok (some f.arrived))] ∧
      (∃ (c : Client) (p : Frame.Form), s.clients[0]? = some c ∧ [f.form, f.form][0]? = some p ∧
        (.ok (some f.arrived) : Reception.Result) =
          .ok (Reception.deliver (some c.destination) p.frame)) ∧
      f.bytes ++ [0x54, 0xab] = [f.form].flatMap Frame.Form.bytes ++
        (s.reception.got ++ s.bus.wire.coming) := by
  intro f arrivals actions s
  have hpasses : f.Passes {} := ⟨by decide, by decide⟩
  have hforms : ∀ p ∈ [f.form, f.form],
      Frame.Form.Accepted ({} : Link.Config).limits p ∧ p.crc = p.computed := by
    simp only [List.forall_mem_cons, List.not_mem_nil, false_implies, implies_true, and_true,
      and_self]
    exact ⟨Frame.accepted_form hpasses, (Frame.crc_form f).trans (Frame.computed_form f).symm⟩
  -- The run is computed, and what the theorem says of it is what follows.
  have hrun : (start {}).Calm actions ∧
      (start {}).received actions = f.bytes ++ [0x54, 0xab] ∧
      [f.form, f.form].flatMap Frame.Form.bytes = f.bytes ++ f.bytes ∧
      [0x54, 0xab] <+: f.bytes ∧ heard s.log = [(0, .ok (some f.arrived))] := by decide +kernel
  rcases hrun with ⟨hcalm, hstream, hbytes, hpart, hheard⟩
  have hreceived : (start {}).received actions <+: [f.form, f.form].flatMap Frame.Form.bytes := by
    rw [hstream, hbytes]
    exact (List.prefix_append_right_inj f.bytes).mpr hpart
  rcases frames_in_order {} actions [f.form, f.form] hcalm hforms hreceived with
    ⟨hanswers, hleft, _⟩
  have hentry : (heard s.log)[0]? = some (0, .ok (some f.arrived)) := by
    rw [hheard, List.getElem?_cons_zero]
  have hcount : (heard s.log).length = 1 := by
    rw [hheard, List.length_singleton]
  rw [hstream, hcount, List.take_succ_cons, List.take_zero] at hleft
  exact ⟨hheard, hanswers 0 0 _ hentry, by rw [hleft]⟩

/-- A read that runs out of time in the middle of a frame loses the part it has
    read, and nothing else gives up anything. The next read takes the rest for
    the beginning of a frame and throws it away, so that a stream of one frame
    leads to an error and to no frame. -/
theorem resynchronized_after_timeout :
    let f : Frame := { source := 5, destination := 0, payload := [0x41, 1, 3, 0x68, 0x69, 0x21] }
    let rest : Arrivals := [(.ofMillis 60, .data 0x68 [0x69, 0x21, 0xf2, 0xcd])]
    let arrivals : Arrivals := (0, .data 0x54 [0xab, 5, 0, 6, 0x41, 1, 3]) :: rest
    let before : List Action := [.create 5 {}, .outside 0 { arrivals },
      .call 0 (.read 2) (some (.ofMillis 40))] ++ List.replicate 9 (.turn 0) ++
      [.outside (.ofMillis 40) { arrivals := rest }]
    let after : List Action := [.call 0 (.read 2) none] ++ List.replicate 6 (.turn 1) ++
      [.outside (.ofMillis 60) { arrivals := rest }, .turn 1]
    let s := (start {}).run before
    let s' := (start {}).run (before ++ .turn 0 :: after)
    (start {}).received (before ++ .turn 0 :: after) = f.form.bytes ∧
      (start {}).Calm before ∧ s.abandons (.turn 0) = f.form.bytes.take 8 ∧
      (s.act (.turn 0)).Calm after ∧
      .turned 0 {
        client := 0
        task := .read 2
        entered := none
        heard := none
        ended := some (.error (.timeout (.ofMillis 40))) } ∈ s'.log ∧
      heard s'.log = [(0, .error (.resynchronized (.badMagic 0x6968) 1))] := by
  decide +kernel

end Session

end Multidrop
