import Multidrop.Proofs.Command.Transcript
import Multidrop.Proofs.Varuint

/-!
# Applying a File Command by Command

The commands of a file are sent one by one. A command leaves the buffer of the
client as a whole, and a drain that succeeds has sent all of it. Then the answer
is read, and only where that is `OK` the next command is put into the buffer. So
on any course the bus carries a number of whole commands, none of them behind
one that was not accepted.

The invariant of the loop is that it stands behind some commands: those were sent
and accepted, and nothing else has gone wrong. A job that fails, or does not get to
its end on the course, leaves it there.

## Main definitions

* `Stands`: Some commands have been sent, and so many of them answered.
* `Concludes`: How applying a file ends.
* `Settled`, `GoesOn`: What a job of the loop comes to.
* `World.Fresh`: Nothing has been done in a world.

## Theorems

* `drain_asks`, `readLine_answers`: A command is sent, and its answer read.
* `applyLines_settled`: The loop, by induction on the commands.
* `Concludes.success_iff`, `Concludes.of_nil`: When a file is applied.
* `applied_in_order`: Applying a file, on any course.
-/

namespace Multidrop

namespace Command

/-- Some commands have been sent, and so many of them answered. -/
structure Stands (owner : Client) (commands asked : List (List UInt8)) (answers : Nat) (h : Host)
    (w : World) : Prop where
  clients : ∃ readBuffer, h.clients = [{ owner with readBuffer }]
  carries : h.bus.Carries owner asked.flatten
  whole : Session.streamOf owner h.bus.wire.sent = asked.flatten
  bus : w.bus.traffic = h.bus.traffic ∧ w.bus.wire.sent = h.bus.wire.sent
  sent : sentOf w.log = h.bus.wire.sent
  halted : w.halted = none
  answers : (linesOf w.log).length = answers
  faultless : ∀ deed ∈ w.log, deed.error? = none
  told : Told owner commands w.log

/-- How the commands of a file are applied. -/
inductive Concludes (owner : Client) (commands : List (List UInt8)) (limit : Duration) :
    Except Failure Unit × World → Prop where
  /-- All commands were sent and accepted. -/
  | applied {w : World} (hwhole : Session.streamOf owner w.bus.wire.sent = commands.flatten)
      (hlines : (linesOf w.log).length = commands.length)
      (haccepted : ∀ line ∈ linesOf w.log, Text.trimBytes line = accepted)
      (hfaultless : ∀ deed ∈ w.log, deed.error? = none) (hhalted : w.halted = none) :
      Concludes owner commands limit (.ok (), w)
  /-- The last line that was read is the first one that is not `OK`. -/
  | refused {message : String} {before : List (List UInt8)} {line : List UInt8} {w : World}
      (hlines : linesOf w.log = before ++ [line])
      (haccepted : ∀ line ∈ before, Text.trimBytes line = accepted)
      (hrefused : Text.trimBytes line ≠ accepted) (hfewer : before.length < commands.length)
      (hfaultless : ∀ deed ∈ w.log, deed.error? = none) (hhalted : w.halted = none) :
      Concludes owner commands limit (.error ⟨dataInvalid, message⟩, w)
  /-- No line has come in time. -/
  | timedOut {message : String} {before : List Deed} {started moment : Duration} {w : World}
      (hlog : w.log = before ++ [.ended .readLine started moment (.error (.timeout limit))])
      (hup : started + limit ≤ moment) (hfaultless : ∀ deed ∈ before, deed.error? = none)
      (hfewer : (linesOf w.log).length < commands.length)
      (haccepted : ∀ line ∈ linesOf w.log, Text.trimBytes line = accepted)
      (hhalted : w.halted = none) :
      Concludes owner commands limit (.error ⟨Command.timedOut, message⟩, w)
  /-- A call has met a fault of the wire or of a frame. -/
  | failed {context : String} {before : List Deed} {task : Task} {started moment : Duration}
      {e : Link.Error} {w : World}
      (hlog : w.log = before ++ [.ended task started moment (.error e)])
      (hfault : e.isFault = true) (hfaultless : ∀ deed ∈ before, deed.error? = none)
      (hfewer : (linesOf w.log).length < commands.length)
      (haccepted : ∀ line ∈ linesOf w.log, Text.trimBytes line = accepted)
      (hhalted : w.halted = none) :
      Concludes owner commands limit (.error (.ofLink context e), w)
  /-- The course is over while a call goes on. If that reads a line and its time
      is up, it gets to its end with turns alone, whatever the wire. -/
  | halted {failure : Failure} {c : Call} {w : World} (hhalted : w.halted = some c)
      (hlate : c.task = .readLine → c.limit = some limit ∧ ∀ now wire,
        c.started + limit ≤ now → c.Finishes 0 (w.bus.drift now wire))
      (hfaultless : ∀ deed ∈ w.log, deed.error? = none)
      (hfewer : (linesOf w.log).length < commands.length)
      (haccepted : ∀ line ∈ linesOf w.log, Text.trimBytes line = accepted) :
      Concludes owner commands limit (.error failure, w)

/-- What is left when the commands have been applied, or could not be. -/
def Settled {α : Type} (owner : Client) (commands : List (List UInt8)) (limit : Duration)
    (out : Except Failure α × World) : Prop :=
  Traced owner commands out.2 ∧ Concludes owner commands limit (out.1.map fun _ => (), out.2)

/-- A job of the loop has settled it, or the loop goes on with what it needs. -/
inductive GoesOn (owner : Client) (commands : List (List UInt8)) (limit : Duration)
    (P : Answer → Host → World → Prop) : Except Failure (Answer × Host) × World → Prop where
  | stops {failure : Failure} {left : World}
      (h : ∀ {α : Type}, Settled (α := α) owner commands limit (.error failure, left)) :
      GoesOn owner commands limit P (.error failure, left)
  | goes {answer : Answer} {after : Host} {left : World} (h : P answer after left) :
      GoesOn owner commands limit P (.ok (answer, after), left)

variable {owner after : Client} {commands front asked : List (List UInt8)}
  {command unsent : List UInt8} {deed : Deed} {w left : World} {h : Host} {answers : Nat}
  {limit : Duration} {build : Build}

/-- Where a world stands after a job that has sent all. -/
theorem Since.stands (hsince : Since owner unsent asked.flatten w [deed] after left)
    (hbuffer : after.writeBuffer = owner.writeBuffer)
    (hwhole : Session.streamOf owner left.bus.wire.sent = asked.flatten)
    (hhalted : left.halted = none) (hw : ∀ deed ∈ w.log, deed.error? = none)
    (hdeed : deed.error? = none) (htold : Told owner commands left.log)
    (hanswers : (linesOf left.log).length = answers) :
    Stands owner commands asked answers { bus := left.bus, clients := [after] } left := by
  have hafter := hsince.after_eq
  have hcarries := hsince.carries
  rw [hbuffer] at hafter
  refine ⟨⟨after.readBuffer, congrArg (fun client => [client]) hafter⟩, ?_, hwhole, ⟨rfl, rfl⟩,
    hsince.sent, hhalted, hanswers, ?_, htold⟩
  · rw [hafter] at hcarries
    exact hcarries
  · -- The last deed may be at the end of those before, and neither is an error.
    rcases hsince.faultless hw with ⟨before, hlog, hbefore⟩
    intro last hlast
    rw [hlog] at hlast
    rcases List.mem_append.mp hlast with hold | hnew
    · exact hbefore last hold
    · exact List.mem_singleton.mp hnew ▸ hdeed

/-- A job that fails, or is not over, has settled it. -/
theorem Performs.stops {task : Task} {time : Option Duration} {context : String}
    {failure : Failure}
    (hperforms : Performs owner unsent (front ++ [command]).flatten task time context w
      ((.error failure : Except Failure (Answer × Host)), left))
    (htask : task = .drain ∧ time = none ∨ task = .readLine ∧ time = some limit)
    (hrate : 0 < owner.config.pollRate) (hat : AtHand commands front command w)
    (htold : Told owner commands w.log) (hfaultless : ∀ deed ∈ w.log, deed.error? = none)
    (hunsent : unsent = command ∨ unsent = []) {α : Type} :
    Settled (α := α) owner commands limit (.error failure, left) := by
  cases hperforms with
  | halted hsince hhalted hc hlimit hsound hreception =>
      rename_i c
      have hleft := hat.of_lines (hsince.lines.trans (List.append_nil _))
      -- The course broke off: no error is known, and the call is one that would end in time.
      refine ⟨hsince.traced hat (hsince.told hat htold (Or.inl rfl)) hunsent,
        .halted hhalted ?_ ?_ (hleft.answers ▸ hat.fewer) hleft.accepted⟩
      · intro hread
        rcases htask with ⟨hdrain, _⟩ | ⟨_, htime⟩
        · rw [hc, hdrain] at hread
          exact absurd hread nofun
        · refine ⟨hlimit.trans htime, fun now wire hup => ?_⟩
          have hlate : Call.Late limit c (left.bus.drift now wire) := {
            task := hread ▸ rfl
            limited := hlimit.trans htime
            up := hup.trans (Nat.le_max_right _ _)
            rate := by rw [hsince.config]; exact hrate
            sound := hsound
            reception := hreception }
          exact hlate.finishes 0
      · rcases hsince.faultless hfaultless with ⟨before, hlog, hbefore⟩
        rw [hlog, List.append_nil]
        exact hbefore
  | failed hsince hhalted hwhy =>
      rename_i after started moment e
      have hleft := hat.of_lines (by rw [hsince.lines, linesOf_failed, List.append_nil])
      have hfewer : (linesOf left.log).length < commands.length := hleft.answers ▸ hat.fewer
      have hnone := line?_failed task started moment e
      have htold' := hsince.told hat htold (Or.inr ⟨_, rfl, rfl, fun hline => absurd hnone hline⟩)
      rcases hsince.faultless hfaultless with ⟨before, hlog, hbefore⟩
      refine ⟨hsince.traced hat htold' hunsent, ?_⟩
      -- The call failed, because of the wire or because its limit was up.
      rcases hwhy with hfault | ⟨time', he, htime', hup⟩
      · exact .failed hlog hfault hbefore hfewer hleft.accepted hhalted
      · -- Only a read has a limit that may have passed.
        rcases htask with ⟨_, htime⟩ | ⟨hread, htime⟩
        · rw [htime] at htime'
          exact absurd htime' nofun
        · rw [htime, Option.some.injEq] at htime'
          rw [he, ← htime'] at hlog ⊢
          rw [hread] at hlog
          rw [← htime'] at hup
          exact .timedOut hlog hup hbefore hfewer hleft.accepted hhalted

/-- The command at hand is sent. -/
theorem drain_asks (build : Build) (limit : Duration) (context : String)
    (hidle : owner.writeBuffer = []) (hrate : 0 < owner.config.pollRate)
    (hat : AtHand commands front command w)
    (hstands : Stands owner commands front front.length h w) :
    GoesOn owner commands limit (fun _ after left =>
        Stands owner commands (front ++ [command]) front.length after left ∧
          after.bus.wire.sent = after.bus.traffic ∧ AtHand commands front command left)
      (w.run (perform (World.surroundings build) context .drain none (h.write 0 command))) := by
  rcases hstands.clients with ⟨readBuffer, hclients⟩
  -- The client has the command in its buffer, and nothing else.
  have hwritten : (h.write 0 command).clients =
      [{ owner with readBuffer, writeBuffer := command }] := by
    rw [Host.write, hclients]
    simp only [List.modify_zero_cons, Client.write, hidle, List.nil_append]
  have hcarries : (h.write 0 command).bus.Carries
      { owner with readBuffer, writeBuffer := command } (front ++ [command]).flatten := by
    have hwrite := hstands.carries.write command
    rw [Client.write, hidle, List.nil_append] at hwrite
    rw [List.flatten_append, List.flatten_singleton]
    exact hwrite
  have hperforms := perform_performs build .drain hwritten hcarries hstands.sent trivial
    (by rintro cause ⟨⟩) (by rintro source ⟨⟩) none context
  generalize w.run (perform _ _ .drain none _) = sent at hperforms ⊢
  rcases sent with ⟨failure | ⟨answer, after⟩, left⟩
  · exact .stops (hperforms.stops (Or.inl ⟨rfl, rfl⟩) hrate hat hstands.told hstands.faultless
      (Or.inl rfl))
  · cases hperforms with
    | done hsince hhalted hdrained =>
        -- All of the buffer has gone out, so the device has this command whole.
        rcases hdrained rfl with ⟨hall, hbuffer⟩
        have hleft := hat.of_lines (hsince.lines.trans (List.append_nil _))
        have htold := hsince.told hat hstands.told
          (Or.inr ⟨_, rfl, rfl, fun hline => absurd rfl hline⟩)
        have hwhole : Session.streamOf owner left.bus.wire.sent = (front ++ [command]).flatten := by
          have hstream := hsince.streamOf
          rw [hbuffer, List.append_nil, ← hall] at hstream
          exact hstream
        exact .goes ⟨hsince.stands (hbuffer.trans hidle.symm) hwhole hhalted hstands.faultless rfl
          htold hleft.answers, hall, hleft⟩

/-- The line that answers it is read. -/
theorem readLine_answers (build : Build) (limit : Duration) (context : String)
    (hidle : owner.writeBuffer = []) (hrate : 0 < owner.config.pollRate)
    (hat : AtHand commands front command w)
    (hstands : Stands owner commands (front ++ [command]) front.length h w)
    (hall : h.bus.wire.sent = h.bus.traffic) :
    GoesOn owner commands limit (fun answer after left =>
        Traced owner commands left ∧
          Stands owner commands (front ++ [command]) (front.length + 1) after left ∧
          linesOf left.log = linesOf w.log ++ [streamOf answer])
      (w.run (perform (World.surroundings build) context .readLine (some limit) h)) := by
  rcases hstands.clients with ⟨readBuffer, hclients⟩
  have hwritten : h.clients = [{ owner with readBuffer, writeBuffer := [] }] := by
    rw [hclients, hidle]
  have hcarries : h.bus.Carries { owner with readBuffer, writeBuffer := [] }
      (front ++ [command]).flatten := by
    have hsame := hstands.carries
    rw [Bus.Carries, hidle] at hsame
    exact hsame
  have hperforms := perform_performs build .readLine hwritten hcarries hstands.sent trivial
    (fun cause => nofun) (fun source => nofun) (some limit) context
  generalize w.run (perform _ _ .readLine (some limit) _) = read at hperforms ⊢
  rcases read with ⟨failure | ⟨answer, after⟩, left⟩
  · exact .stops (hperforms.stops (Or.inr ⟨rfl, rfl⟩) hrate hat hstands.told hstands.faultless
      (Or.inr rfl))
  · cases hperforms with
    | done hsince hhalted hdrained =>
        rename_i after started moment
        have hlines := hsince.lines
        have hbuffer : after.writeBuffer = owner.writeBuffer := by
          rw [hidle]
          exact hsince.buffer.elim id id
        -- Nothing of the stream is added while the answer is awaited.
        have hwhole : Session.streamOf owner left.bus.wire.sent = (front ++ [command]).flatten := by
          have hleft := hsince.carries
          rw [hsince.after_eq, hbuffer] at hleft
          refine Bus.Carries.whole hstands.carries hleft hidle hall ?_
          rcases hsince.log with ⟨parts, hlog⟩
          rw [← hstands.sent, ← hsince.sent, hlog]
          exact sentOf_front (List.prefix_append _ _)
        have htold := hsince.told hat hstands.told (Or.inr ⟨_, rfl, rfl, fun _ => hwhole⟩)
        -- The line that came is counted for this command.
        have hanswers : (linesOf left.log).length = front.length + 1 := by
          rw [hlines, List.length_append, hat.answers]
          rfl
        exact .goes ⟨hsince.traced hat htold (Or.inr rfl),
          hsince.stands hbuffer hwhole hhalted hstands.faultless rfl htold hanswers, hlines⟩

/-- Where all commands have been sent and accepted. -/
theorem Stands.settled (hstands : Stands owner commands commands commands.length h w)
    (hidle : owner.writeBuffer = [])
    (haccepted : ∀ line ∈ linesOf w.log, Text.trimBytes line = accepted) :
    Traced owner commands w ∧ Concludes owner commands limit (.ok (), w) := by
  have hstream := hstands.carries.stream
  rw [hidle, List.append_nil, ← hstands.bus.1] at hstream
  have hcount : commands.length ≤ acceptedOf w.log + 1 := by
    rw [acceptedOf_of_all haccepted, hstands.answers]
    exact Nat.le_succ _
  have hwhole : Session.streamOf owner w.bus.wire.sent = commands.flatten := by
    rw [hstands.bus.2, hstands.whole]
  refine ⟨⟨hstands.told, ⟨commands.length, Nat.le_refl _, hcount, ?_⟩, ?_⟩,
    .applied hwhole hstands.answers haccepted hstands.faultless hstands.halted⟩
  · rw [List.take_length, hstream]
  · rw [hstands.sent, hstands.bus.2]

/-- Commands are applied one by one. By induction on those that are left. -/
theorem applyLines_settled (build : Build) (limit : Duration) (format : Report.Format)
    (hidle : owner.writeBuffer = []) (hrate : 0 < owner.config.pollRate)
    {rest : List (List UInt8)} (hcommands : commands = front ++ rest)
    (hstands : Stands owner commands front front.length h w)
    (haccepted : ∀ line ∈ linesOf w.log, Text.trimBytes line = accepted) :
    Settled owner commands limit
      (w.run (applyLines (World.surroundings build) format limit rest h)) := by
  induction rest generalizing front h w with
  -- All commands are through, and each had its line.
  | nil =>
      rw [List.append_nil] at hcommands
      rw [← hcommands] at hstands
      exact hstands.settled hidle haccepted
  | cons command more ih =>
      have hat : AtHand commands front command w := ⟨⟨more, hcommands⟩, hstands.answers, haccepted⟩
      -- The command is sent, then its line is read, and each may stop the loop.
      rw [applyLines, World.run_bind, applyLine, World.run_bind]
      have hasks := drain_asks build limit
        s!"sending {Text.quoted (Text.latin (Text.trimBytes command))} failed" hidle hrate hat
        hstands
      generalize w.run (perform _ _ .drain none _) = sent at hasks ⊢
      cases hasks with
      | stops hsettled => exact hsettled
      | goes hasked =>
          rename_i _ asked left
          rcases hasked with ⟨hasked, hall, hleft⟩
          simp only
          rw [World.run_bind]
          have hreads := readLine_answers build limit
            s!"no reply to {Text.quoted (Text.latin (Text.trimBytes command))}" hidle hrate hleft
            hasked hall
          generalize left.run (perform _ _ .readLine (some limit) asked) = read at hreads ⊢
          cases hreads with
          | stops hsettled => exact hsettled
          | goes hanswered =>
              rename_i answer after final
              rcases hanswered with ⟨htraced, hnext, hlines⟩
              simp only [World.run_pure]
              rw [World.run_bind, World.run_print]
              simp only
              by_cases hok : Text.trimBytes (streamOf answer) = accepted
              · -- The loop goes on behind one more command.
                have hlength : (front ++ [command]).length = front.length + 1 := List.length_append
                have haccepted' : ∀ line ∈ linesOf final.log, Text.trimBytes line = accepted := by
                  intro line hline
                  rw [hlines] at hline
                  rcases List.mem_append.mp hline with hold | hnew
                  · exact hleft.accepted line hold
                  · exact List.mem_singleton.mp hnew ▸ hok
                have hrest := ih (hcommands.trans (List.append_cons _ _ _)) (hlength ▸ hnext)
                  haccepted'
                rw [if_pos hok, World.run_bind]
                generalize final.run (applyLines _ _ _ _ _) = out at hrest ⊢
                rcases out with ⟨failure | applied, last⟩
                · exact hrest
                · exact hrest
              · -- A line that is no acceptance stops the loop.
                rw [if_neg hok, World.run_throw]
                have hfewer : (linesOf left.log).length < commands.length :=
                  hleft.answers ▸ hat.fewer
                exact ⟨htraced,
                  .refused hlines hleft.accepted hok hfewer hnext.faultless hnext.halted⟩

/-- The commands are applied where all of them were sent and accepted, and
    nowhere else. -/
theorem Concludes.success_iff {out : Except Failure Unit × World}
    (h : Concludes owner commands limit out) :
    out.1 = .ok () ↔ Session.streamOf owner out.2.bus.wire.sent = commands.flatten ∧
      (linesOf out.2.log).length = commands.length ∧
      ∀ line ∈ linesOf out.2.log, Text.trimBytes line = accepted := by
  cases h with
  | applied hwhole hlines haccepted hfaultless hhalted =>
      exact ⟨fun _ => ⟨hwhole, hlines, haccepted⟩, fun _ => rfl⟩
  -- Every other end has a line that is no acceptance, or fewer lines than commands.
  | refused hlines haccepted hrefused hfewer hfaultless hhalted =>
      refine ⟨nofun, fun hall => absurd (hall.2.2 _ ?_) hrefused⟩
      rw [hlines]
      exact List.mem_append_right _ List.mem_cons_self
  | timedOut hlog hup hfaultless hfewer haccepted hhalted =>
      exact ⟨nofun, fun hall => absurd hall.2.1 (Nat.ne_of_lt hfewer)⟩
  | failed hlog hfault hfaultless hfewer haccepted hhalted =>
      exact ⟨nofun, fun hall => absurd hall.2.1 (Nat.ne_of_lt hfewer)⟩
  | halted hhalted hlate hfaultless hfewer haccepted =>
      exact ⟨nofun, fun hall => absurd hall.2.1 (Nat.ne_of_lt hfewer)⟩

/-- A file with no commands is applied. -/
theorem Concludes.of_nil {out : Except Failure Unit × World}
    (h : Concludes owner commands limit out) (hnone : commands = []) : out.1 = .ok () := by
  have hlength : commands.length = 0 := List.length_eq_zero_iff.mpr hnone
  cases h with
  | applied hwhole hlines haccepted hfaultless hhalted => rfl
  | refused hlines haccepted hrefused hfewer hfaultless hhalted =>
      exact absurd (hlength ▸ hfewer) (Nat.not_lt_zero _)
  | timedOut hlog hup hfaultless hfewer haccepted hhalted =>
      exact absurd (hlength ▸ hfewer) (Nat.not_lt_zero _)
  | failed hlog hfault hfaultless hfewer haccepted hhalted =>
      exact absurd (hlength ▸ hfewer) (Nat.not_lt_zero _)
  | halted hhalted hlate hfaultless hfewer haccepted =>
      exact absurd (hlength ▸ hfewer) (Nat.not_lt_zero _)

/-! ### Applying a file -/

/-- A client of a device that can be addressed can be created, if the chunks
    leave room for the header of their sub-frames. -/
theorem create_client {destination : UInt8} {config : Client.Config}
    (h : destination ≤ Frame.broadcast)
    (hchunk : 3 * Varuint.maxSize + config.chunkSize.toNat ≤ Frame.maxPayload) :
    Client.create destination config = .ok { destination, config } := by
  have hsize : ∀ value : UInt32, Varuint.size value ≤ Varuint.maxSize := fun value =>
    Varuint.length_encode value ▸ Varuint.length_encode_le value
  -- Three numbers stand before the data, and none is longer than the longest.
  have hheader : Stream.headerSize Subframe.toDevice config.channel config.announced ≤
      3 * Varuint.maxSize := by
    have hid := hsize Subframe.toDevice
    have hchannel := hsize config.channel
    have hlength := hsize config.announced
    rw [Stream.headerSize]
    omega
  have hsmall : Stream.headerSize Subframe.toDevice config.channel config.announced +
      config.chunkSize.toNat ≤ Frame.maxPayload :=
    (Nat.add_le_add_right hheader _).trans hchunk
  have hpayload : config.maxStreamPayload =
      some (Stream.headerSize Subframe.toDevice config.channel config.announced +
        config.chunkSize.toNat) :=
    if_pos (Nat.lt_of_le_of_lt hsmall (by decide))
  rw [Client.create, if_neg (UInt8.not_lt.mpr h), hpayload]
  exact if_neg (Nat.not_lt.mpr hsmall)

/-- The bus is connected to, for one client. -/
theorem run_openHost (build : Build) {common : Common} {w : World} {endpoint : Transport.Endpoint}
    {wire : Wire} (hendpoint : common.endpoint = .ok endpoint)
    (hbridge : w.bridge endpoint = .ok wire) (hsource : common.source ≤ Frame.broadcast)
    {destination : UInt8} {config : Client.Config} {client : Client}
    (hclient : Client.create destination config = .ok client) :
    w.run (openHost (World.surroundings build) common destination config) =
      (.ok { bus := { link := { config := common.linkConfig }, wire }, clients := [client] },
        w) := by
  have hlink : Link.create common.linkConfig = .ok { config := common.linkConfig } := by
    rw [Link.create]
    exact if_neg (UInt8.not_lt.mpr hsource)
  -- Step by step: the endpoint, the bridge, the link and the client.
  rw [openHost, World.run_bind, World.run_orFail, hendpoint]
  simp only
  rw [World.run_bind, World.run_bind, World.run_connect, hbridge]
  simp only
  rw [World.run_orFail]
  simp only
  rw [World.run_bind, World.run_orFail, hlink]
  simp only
  rw [World.run_bind, World.run_orFail, hclient]
  rfl

/-- Nothing has been done in a world. -/
structure World.Fresh (w : World) : Prop where
  bus : w.bus = {}
  log : w.log = []
  halted : w.halted = none

theorem stands_openHost (owner : Client) (commands : List (List UInt8)) (common : Common)
    {wire : Wire} (hsent : wire.sent = []) (hidle : owner.writeBuffer = []) {w : World}
    (hfresh : w.Fresh) :
    Stands owner commands [] 0
      { bus := { link := { config := common.linkConfig }, wire }, clients := [owner] } w where
  clients := ⟨owner.readBuffer, rfl⟩
  carries := by
    refine ⟨[], fun f hf => absurd hf List.not_mem_nil, ?_, hidle⟩
    rw [Bus.traffic, hsent]
    rfl
  whole := by
    have hnone : Frame.decoded ([].flatMap Frame.bytes) = [].map Frame.arrived :=
      Frame.decoded_flatMap fun f hf => absurd hf List.not_mem_nil
    rw [hsent]
    exact Session.streamOf_arrived hnone
  bus := by
    rw [hfresh.bus, Bus.traffic, Bus.traffic, hsent]
    exact ⟨rfl, rfl⟩
  sent := by
    rw [hfresh.log, hsent]
    rfl
  halted := hfresh.halted
  answers := by
    rw [hfresh.log]
    rfl
  faultless := by
    rw [hfresh.log]
    exact fun deed hdeed => absurd hdeed List.not_mem_nil
  told := by
    rw [hfresh.log]
    exact told_nil owner commands

/-- Where a file can be read and a bus connected to, its commands are applied. -/
theorem run_configure (build : Build) {common : Common} {order : Configure} {w : World}
    {timeout limit : Duration} {file : List UInt8} {host : Host}
    (htimeout : parseDuration order.timeout = .ok timeout)
    (hlimit : parseDuration order.lineTimeout = .ok limit) (hfile : w.files order.file = .ok file)
    (hhost : w.run (openHost (World.surroundings build) common order.target
      { channel := order.channel, timeout }) = (.ok host, w)) :
    w.run (order.run (World.surroundings build) common) =
      match w.run (applyLines (World.surroundings build) common.reportFormat limit
        (commandLines file) host) with
      | (.ok _, left) => (.ok (), left)
      | (.error failure, left) => (.error failure, left) := by
  rw [Configure.run, World.run_bind, World.run_orFail, htimeout]
  simp only
  rw [World.run_bind, World.run_orFail, hlimit]
  simp only
  rw [World.run_bind, World.run_bind, World.run_readFile, hfile]
  simp only
  rw [World.run_orFail]
  simp only
  rw [World.run_bind, hhost]
  simp only
  rw [World.run_bind]
  rcases w.run (applyLines (World.surroundings build) common.reportFormat limit
    (commandLines file) host) with ⟨failure | applied, left⟩
  · rfl
  · rfl

/-- Commands of a file are sent one by one, and the first failure stops that. On
    any course, where the arguments are valid, the file can be read and the bus be
    connected to:

    With what is still queued, the device is sent the first commands of the file,
    each of them whole. No byte of a command is sent, not even in part of a frame,
    before as many lines as there are commands in front of it were read, each of
    them `OK` between blanks; and no line is read before the command it answers was
    sent whole.

    All goes well if and only if every command was sent and its line was `OK`, so
    also for a file with no commands. The first other line ends it as data that
    makes no sense, a read whose time is up ends it as a timeout, and a fault of
    the wire or of a frame with the code of that fault. Nothing else ends it, and
    a read cannot outlive its limit: from then on it gets to its end at once. -/
theorem applied_in_order (build : Build) (common : Common) (order : Configure) (w : World)
    (hfresh : w.Fresh) {timeout limit : Duration} {file : List UInt8}
    {endpoint : Transport.Endpoint} {wire : Wire}
    (htimeout : parseDuration order.timeout = .ok timeout)
    (hlimit : parseDuration order.lineTimeout = .ok limit) (hfile : w.files order.file = .ok file)
    (htarget : order.target ≤ Frame.broadcast) (hsource : common.source ≤ Frame.broadcast)
    (hendpoint : common.endpoint = .ok endpoint) (hbridge : w.bridge endpoint = .ok wire)
    (hsent : wire.sent = []) :
    let client : Client :=
      { destination := order.target, config := { channel := order.channel, timeout } }
    let ran := w.run (order.run (World.surroundings build) common)
    Traced client (commandLines file) ran.2 ∧ Concludes client (commandLines file) limit ran ∧
      (ran.1 = .ok () ↔ Session.streamOf client ran.2.bus.wire.sent = (commandLines file).flatten ∧
        (linesOf ran.2.log).length = (commandLines file).length ∧
        ∀ line ∈ linesOf ran.2.log, Text.trimBytes line = accepted) ∧
      (commandLines file = [] → ran.1 = .ok ()) := by
  intro client ran
  -- The command leaves the chunk size at its default, which fits on every channel.
  have hclient : Client.create order.target { channel := order.channel, timeout } = .ok client :=
    create_client htarget (show 3 * Varuint.maxSize + 100 ≤ Frame.maxPayload by decide)
  have hran : ran = _ := run_configure build htimeout hlimit hfile
    (run_openHost build hendpoint hbridge hsource hclient)
  have hnone : ∀ line ∈ linesOf w.log, Text.trimBytes line = accepted := by
    rw [hfresh.log]
    exact fun line hline => absurd hline List.not_mem_nil
  have happlied := applyLines_settled build limit common.reportFormat rfl
    (show 0 < Duration.ofMillis 100 by decide) (List.nil_append _).symm
    (stands_openHost client (commandLines file) common hsent rfl hfresh) hnone
  -- What the command reports of the applied lines does not change the outcome.
  have hsettled : Traced client (commandLines file) ran.2 ∧
      Concludes client (commandLines file) limit ran := by
    rw [hran]
    generalize w.run (applyLines _ _ _ _ _) = out at happlied
    rcases out with ⟨failure | applied, left⟩
    · exact happlied
    · exact happlied
  exact ⟨hsettled.1, hsettled.2, hsettled.2.success_iff, hsettled.2.of_nil⟩

/-- Device 5 answers a command with a line. -/
def answerOf (line : List UInt8) : Frame where
  source := 5
  destination := 0
  payload := Stream.payload Subframe.toHost 1 line

/-- A file with two commands, a device that accepts them one after the other, and time
    for all calls. -/
def obliging : World where
  files := fun _ => .ok [0x61, 0x0a, 0x62, 0x0a]
  bridge := fun _ => .ok { arrivals :=
    [(0, .data 0x54 ((answerOf [0x4f, 0x4b, 0x0a]).bytes.drop 1))] }
  course := List.replicate 20 .turn ++ [.outside (.ofSecs 1) {}] ++ List.replicate 20 .turn ++
    [.outside (.ofSecs 1) { arrivals :=
      [(.ofSecs 1, .data 0x54 ((answerOf [0x20, 0x4f, 0x4b, 0x0d, 0x0a]).bytes.drop 1))] }] ++
    List.replicate 20 .turn ++ [.outside (.ofMillis 1100) {}] ++ List.replicate 20 .turn

/-- The arguments for device 5. -/
def toDeviceFive : Configure where
  file := "a"
  target := 5
  channel := 1
  timeout := "50ms"
  lineTimeout := "1s"

/-- The options for a bridge that is a socket. -/
def onSocket : Common where
  connect := some "unix:/a"
  source := 0
  strictCrc := false
  format := none
  logFormat := .text
  logLevel := .warn

/-- Both commands go through. -/
theorem obliging_applied :
    let ran := obliging.run (toDeviceFive.run (World.surroundings ⟨"", ""⟩) onSocket)
    ran.1 = .ok () ∧ linesOf ran.2.log = [[0x4f, 0x4b], [0x20, 0x4f, 0x4b]] := by
  decide +kernel

/-- The first command alone has been sent when the first line is read, and the second one
    behind it in the end. -/
theorem applied_in_order_two_commands :
    let client : Client :=
      { destination := 5, config := { channel := 1, timeout := 50000000 } }
    let ran := obliging.run (toDeviceFive.run (World.surroundings ⟨"", ""⟩) onSocket)
    ran.1 = .ok () ∧ linesOf ran.2.log = [[0x4f, 0x4b], [0x20, 0x4f, 0x4b]] ∧
      Session.streamOf client ran.2.bus.wire.sent = [0x61, 0x0a, 0x62, 0x0a] ∧
      (∀ line ∈ linesOf ran.2.log, Text.trimBytes line = accepted) ∧
      ∀ earlier deed, earlier ++ [deed] <+: ran.2.log → deed.line? ≠ none → linesOf earlier = [] →
        Session.streamOf client (sentOf earlier) = [0x61, 0x0a] := by
  have hcommands : commandLines [0x61, 0x0a, 0x62, 0x0a] = [[0x61, 0x0a], [0x62, 0x0a]] := by
    decide
  rcases obliging_applied with ⟨hok, hlines⟩
  rcases applied_in_order ⟨"", ""⟩ onSocket toDeviceFive obliging ⟨rfl, rfl, rfl⟩
    (show parseDuration "50ms" = .ok 50000000 from rfl)
    (show parseDuration "1s" = .ok 1000000000 from rfl) rfl (by decide) (by decide)
    (show onSocket.endpoint = .ok (.unix "/a") from rfl) rfl rfl with
    ⟨htraced, _, hiff, _⟩
  -- Success is computed, and the theorem says what was sent and answered then.
  rcases hiff.mp hok with ⟨hsent, _, haccepted⟩
  rw [hcommands] at hsent htraced
  refine ⟨hok, hlines, hsent, haccepted, fun earlier deed hearlier hline hnone => ?_⟩
  have hanswered := htraced.answered earlier deed hearlier hline
  rw [hnone] at hanswered
  exact hanswered

end Command

end Multidrop
