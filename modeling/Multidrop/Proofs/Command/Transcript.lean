import Mathlib.Data.List.Infix
import Mathlib.Data.List.TakeWhile
import Multidrop.Command.Configure
import Multidrop.Proofs.Command.Course

/-!
# What a Log Tells

The log of a command says what was sent and which lines were read, in order. It
tells that some commands were applied one by one if two things are true wherever
it is cut. What was sent by then belongs to the commands whose turn had come: those
that were accepted, and one more. And where a line was read, the command it answers
had been sent whole.

Bytes are sent at any turn, and a frame may be cut in two. So what was sent is
compared with frames that may be longer than what there is of them, and not only
with those that are there whole.

## Main definitions

* `Client.SentWithin`: What was sent carries no more than a stream.
* `linesOf`, `acceptedOf`: The lines in a log, and how many of them were accepted.
* `Told`: What a log tells of some commands.
* `Traced`: What a world shows of them.

## Theorems

* `Told.snoc`, `Told.sent`: What it takes for a log to go on.
* `Since.told`, `Since.traced`: A job that sends the next command.
-/

namespace Multidrop

/-- What was sent is part of frames that carry no more than a stream. -/
def Client.SentWithin (c : Client) (sent stream : List UInt8) : Prop :=
  ∃ frames : List Frame, (∀ f ∈ frames, f.Fits) ∧ sent <+: frames.flatMap Frame.bytes ∧
    frames.flatMap (Frame.streamData c.destination c.config.channel) <+: stream

theorem Client.SentWithin.mono {c : Client} {sent part stream longer : List UInt8}
    (h : c.SentWithin sent stream) (hpart : part <+: sent) (hlonger : stream <+: longer) :
    c.SentWithin part longer := by
  rcases h with ⟨frames, hfits, hbytes, hdata⟩
  exact ⟨frames, hfits, hpart.trans hbytes, hdata.trans hlonger⟩

namespace Command

/-- The line that was read, if one was. -/
def Deed.line? : Deed → Option (List UInt8)
  | .ended .readLine _ _ (.ok answer) => some (streamOf answer)
  | _ => none

/-- How a call has failed, if it has. -/
def Deed.error? : Deed → Option Link.Error
  | .ended _ _ _ (.error e) => some e
  | _ => none

/-- The lines that were read. -/
def linesOf (log : List Deed) : List (List UInt8) :=
  log.filterMap Deed.line?

/-- How many lines were accepted before the first one that was not. -/
def acceptedOf (log : List Deed) : Nat :=
  ((linesOf log).takeWhile fun line => Text.trimBytes line = accepted).length

/-- What was sent of some commands, and when, is told by what was done. -/
structure Told (owner : Client) (commands : List (List UInt8)) (log : List Deed) : Prop where
  /-- No byte of a command is sent before the lines that accept the earlier
      ones were read. -/
  ordered : ∀ earlier, earlier <+: log →
    owner.SentWithin (sentOf earlier) (commands.take (acceptedOf earlier + 1)).flatten
  /-- No line is read before the command it answers was sent whole. -/
  answered : ∀ earlier deed, earlier ++ [deed] <+: log → deed.line? ≠ none →
    Session.streamOf owner (sentOf earlier) =
      (commands.take ((linesOf earlier).length + 1)).flatten

/-- All that can be said of what was sent of some commands. -/
structure Traced (owner : Client) (commands : List (List UInt8)) (w : World) : Prop
    extends Told owner commands w.log where
  /-- With what is still queued, some commands were sent, each of them whole,
      and none behind one that was not accepted. -/
  stream : ∃ count, count ≤ commands.length ∧ count ≤ acceptedOf w.log + 1 ∧
    Session.streamOf owner w.bus.traffic = (commands.take count).flatten
  sent : sentOf w.log = w.bus.wire.sent

variable {owner : Client} {commands : List (List UInt8)} {log more : List Deed} {deed : Deed}

/-! ### Views of a log -/

theorem sentOf_front (h : log <+: more) : sentOf log <+: sentOf more :=
  h.flatMap Deed.bytes

theorem sentOf_singleton (deed : Deed) : sentOf [deed] = deed.bytes :=
  List.append_nil _

theorem linesOf_append (log more : List Deed) :
    linesOf (log ++ more) = linesOf log ++ linesOf more :=
  List.filterMap_append

theorem linesOf_sent (parts : List (List UInt8)) : linesOf (parts.map .sent) = [] := by
  rw [linesOf, List.filterMap_map]
  exact List.filterMap_eq_nil_iff.mpr fun part _ => rfl

theorem acceptedOf_mono (h : log <+: more) : acceptedOf log ≤ acceptedOf more := by
  rcases h with ⟨rest, hrest⟩
  rw [acceptedOf, acceptedOf, ← hrest, linesOf_append, List.takeWhile_append]
  split
  · rename_i hall
    rw [hall, List.length_append]
    exact Nat.le_add_right _ _
  · exact Nat.le_refl _

theorem acceptedOf_of_all (h : ∀ line ∈ linesOf log, Text.trimBytes line = accepted) :
    acceptedOf log = (linesOf log).length := by
  rw [acceptedOf, List.takeWhile_eq_self_iff.mpr]
  intro line hline
  exact decide_eq_true (h line hline)

theorem line?_failed (task : Task) (started moment : Duration) (e : Link.Error) :
    (Deed.ended task started moment (.error e)).line? = none := by
  cases task with
  | _ => rfl

theorem linesOf_failed (task : Task) (started moment : Duration) (e : Link.Error) :
    linesOf [.ended task started moment (.error e)] = [] := by
  rw [linesOf, List.filterMap_cons_none (line?_failed task started moment e), List.filterMap_nil]

/-! ### What was sent, and when -/

theorem told_nil (owner : Client) (commands : List (List UInt8)) : Told owner commands [] where
  ordered := by
    intro earlier hearlier
    rw [List.prefix_nil.mp hearlier]
    exact ⟨[], fun f hf => absurd hf List.not_mem_nil, List.prefix_refl _, List.nil_prefix⟩
  answered := by
    intro earlier deed hearlier
    exact absurd (List.append_eq_nil_iff.mp (List.prefix_nil.mp hearlier)).2
      (List.cons_ne_nil _ _)

/-- One more thing is done. -/
theorem Told.snoc (h : Told owner commands log)
    (hwithin : owner.SentWithin (sentOf (log ++ [deed]))
      (commands.take (acceptedOf log + 1)).flatten)
    (hanswered : deed.line? ≠ none → Session.streamOf owner (sentOf log) =
      (commands.take ((linesOf log).length + 1)).flatten) :
    Told owner commands (log ++ [deed]) where
  ordered := by
    intro earlier hearlier
    -- A beginning of the longer log is all of it, or one of the log before.
    rcases List.prefix_concat_iff.mp hearlier with hall | hbefore
    · have hmore := acceptedOf_mono (List.prefix_append log [deed])
      rw [hall]
      exact hwithin.mono (List.prefix_refl _)
        (List.take_prefix_take_left (Nat.succ_le_succ hmore)).flatten
    · exact h.ordered earlier hbefore
  answered := by
    intro earlier last hearlier hline
    rcases List.prefix_concat_iff.mp hearlier with hall | hbefore
    · rcases List.append_inj' hall rfl with ⟨hlog, hlast⟩
      rw [hlog]
      exact hanswered (List.head_eq_of_cons_eq hlast ▸ hline)
    · exact h.answered earlier last hbefore hline

/-- More is sent. By induction on the parts in which the wire accepts it. -/
theorem Told.sent (h : Told owner commands log) (parts : List (List UInt8))
    (hwithin : owner.SentWithin (sentOf (log ++ parts.map .sent))
      (commands.take (acceptedOf log + 1)).flatten) :
    Told owner commands (log ++ parts.map .sent) := by
  induction parts generalizing log with
  | nil =>
      rw [List.map_nil, List.append_nil]
      exact h
  | cons part parts ih =>
      have hsplit : log ++ (part :: parts).map .sent = log ++ [.sent part] ++ parts.map .sent := by
        rw [List.map_cons, List.append_cons]
      -- Bytes that are sent are no line.
      have hnone : acceptedOf (log ++ [.sent part]) = acceptedOf log := by
        have hlines := linesOf_sent [part]
        rw [List.map_singleton] at hlines
        rw [acceptedOf, linesOf_append, hlines, List.append_nil, acceptedOf]
      rw [hsplit] at hwithin ⊢
      refine ih (h.snoc (hwithin.mono ?_ (List.prefix_refl _)) fun hline => absurd rfl hline) ?_
      · exact sentOf_front (List.prefix_append _ _)
      · rw [hnone]
        exact hwithin

/-! ### What a job adds -/

variable {unsent data : List UInt8} {ends : List Deed} {after : Client} {w left : World}

theorem Since.streamOf (h : Since owner unsent data w ends after left) :
    Session.streamOf owner left.bus.traffic ++ after.writeBuffer = data := by
  have hstream := h.carries.stream
  rw [Session.streamOf, h.destination, h.config] at hstream
  exact hstream

theorem Since.within (h : Since owner unsent data w ends after left) :
    owner.SentWithin (sentOf left.log) data := by
  rcases h.carries with ⟨frames, hfits, htraffic, hdata⟩
  refine ⟨frames, hfits, ?_, ?_⟩
  · rw [h.sent, ← htraffic]
    exact left.bus.sent_prefix_traffic
  · rw [← hdata, h.destination, h.config]
    exact List.prefix_append _ _

theorem Since.after_eq (h : Since owner unsent data w ends after left) :
    after = { owner with readBuffer := after.readBuffer, writeBuffer := after.writeBuffer } := by
  rw [← h.destination, ← h.config]

theorem Since.lines (h : Since owner unsent data w ends after left) :
    linesOf left.log = linesOf w.log ++ linesOf ends := by
  rcases h.log with ⟨parts, hlog⟩
  rw [hlog, linesOf_append, linesOf_append, linesOf_sent, List.nil_append]

theorem Since.faultless (h : Since owner unsent data w ends after left)
    (hw : ∀ deed ∈ w.log, deed.error? = none) :
    ∃ before, left.log = before ++ ends ∧ ∀ deed ∈ before, deed.error? = none := by
  rcases h.log with ⟨parts, hlog⟩
  refine ⟨w.log ++ parts.map .sent, by rw [hlog, List.append_assoc], ?_⟩
  intro deed hdeed
  rcases List.mem_append.mp hdeed with hold | hnew
  · exact hw deed hold
  · rcases List.mem_map.mp hnew with ⟨part, _, hpart⟩
    rw [← hpart]
    rfl

/-- The command at hand: those in front of it were accepted, and no other line was
    read. -/
structure AtHand (commands front : List (List UInt8)) (command : List UInt8) (w : World) :
    Prop where
  commands : ∃ later, commands = front ++ command :: later
  answers : (linesOf w.log).length = front.length
  accepted : ∀ line ∈ linesOf w.log, Text.trimBytes line = accepted

variable {front : List (List UInt8)} {command : List UInt8}

theorem AtHand.acceptedOf (h : AtHand commands front command w) :
    acceptedOf w.log = front.length :=
  (acceptedOf_of_all h.accepted).trans h.answers

theorem AtHand.take (h : AtHand commands front command w) :
    commands.take (front.length + 1) = front ++ [command] := by
  rcases h.commands with ⟨later, hcommands⟩
  rw [hcommands, List.take_length_add_append, List.take_succ_cons, List.take_zero]

theorem AtHand.take_front (h : AtHand commands front command w) :
    commands.take front.length = front := by
  rcases h.commands with ⟨later, hcommands⟩
  rw [hcommands, List.take_left]

theorem AtHand.fewer (h : AtHand commands front command w) : front.length < commands.length := by
  rcases h.commands with ⟨later, hcommands⟩
  rw [hcommands, List.length_append, List.length_cons]
  omega

theorem AtHand.of_lines (h : AtHand commands front command w)
    (hlines : linesOf left.log = linesOf w.log) : AtHand commands front command left where
  commands := h.commands
  answers := hlines ▸ h.answers
  accepted := hlines ▸ h.accepted

/-- What a job has done is told as well, if it sends the command at hand. -/
theorem Since.told (h : Since owner unsent (front ++ [command]).flatten w ends after left)
    (hat : AtHand commands front command w) (hw : Told owner commands w.log)
    (hends : ends = [] ∨ ∃ deed, ends = [deed] ∧ deed.bytes = [] ∧ (deed.line? ≠ none →
      Session.streamOf owner left.bus.wire.sent = (front ++ [command]).flatten)) :
    Told owner commands left.log := by
  have hwithin := h.within
  rcases h.log with ⟨parts, hlog⟩
  rw [← hat.take, ← hat.acceptedOf, hlog, ← List.append_assoc] at hwithin
  rw [hlog, ← List.append_assoc]
  -- What is sent adds no answer, so the bound stays the command at hand.
  have hparts := hw.sent parts (hwithin.mono (sentOf_front (List.prefix_append _ _))
    (List.prefix_refl _))
  rcases hends with hnil | ⟨deed, hdeed, hbytes, hanswered⟩
  · rw [hnil, List.append_nil]
    exact hparts
  · -- The end of a call comes behind all that was sent during it.
    have hlines : linesOf (w.log ++ parts.map .sent) = linesOf w.log := by
      rw [linesOf_append, linesOf_sent, List.append_nil]
    have hsent : sentOf (w.log ++ parts.map .sent) = left.bus.wire.sent := by
      rw [← h.sent, hlog, ← List.append_assoc, sentOf_append _ ends, hdeed, sentOf_singleton,
        hbytes, List.append_nil]
    rw [hdeed] at hwithin ⊢
    refine hparts.snoc ?_ ?_
    · rw [Command.acceptedOf, hlines]
      exact hwithin
    · rw [hlines, hsent, hat.answers, hat.take]
      exact hanswered

/-- Either all of the command at hand is on the bus, or nothing of it. -/
theorem Since.traced (h : Since owner unsent (front ++ [command]).flatten w ends after left)
    (hat : AtHand commands front command w) (htold : Told owner commands left.log)
    (hunsent : unsent = command ∨ unsent = []) : Traced owner commands left := by
  have hstream := h.streamOf
  have hmore : front.length ≤ Command.acceptedOf left.log := by
    rcases h.log with ⟨parts, hlog⟩
    rw [← hat.acceptedOf, hlog]
    exact acceptedOf_mono (List.prefix_append _ _)
  have hall : after.writeBuffer = [] → ∃ count, count ≤ commands.length ∧
      count ≤ Command.acceptedOf left.log + 1 ∧
      Session.streamOf owner left.bus.traffic = (commands.take count).flatten := by
    intro hnone
    refine ⟨front.length + 1, hat.fewer, Nat.succ_le_succ hmore, ?_⟩
    rw [hnone, List.append_nil] at hstream
    rw [hstream, hat.take]
  refine ⟨htold, ?_, h.sent⟩
  -- The buffer still has the command, or has sent it.
  rcases h.buffer with hsame | hnone
  · rcases hunsent with hcommand | hnil
    · -- The command has not left the buffer.
      refine ⟨front.length, Nat.le_of_lt hat.fewer, Nat.le_succ_of_le hmore, ?_⟩
      rw [hsame, hcommand, List.flatten_append, List.flatten_singleton] at hstream
      rw [hat.take_front]
      exact List.append_cancel_right hstream
    · exact hall (hsame.trans hnil)
  · exact hall hnone

end Command

end Multidrop
