import Multidrop.Command.Surroundings
import Multidrop.Proofs.Call.Carrying
import Multidrop.Proofs.Call.Failing

/-!
# Courses

A command makes one call at a time, and somebody gives the calls their turns.
Between two turns anything may happen outside: time passes, and the wire changes
in all but what was sent, so that the next turn finds other arrivals, rules and
credit, or another device. A course says what happens, and in which order. Each
call takes of it what it needs to get to its end. If a course is over before the
call is, the command is halted there. So what is true on every course is true
whatever devices do, however the wire treats its callers, and whenever.

A world is a place to run commands on a course. It keeps what was done: what the
wire accepted at each turn, and how calls ended.

## Main definitions

* `Happening`, `Deed`: What happens to a command, and what it does.
* `follow`: Let a call take its turns on a course.
* `World`: A place to run commands on a course.
* `World.surroundings`: A world as the surroundings of a command.
* `World.concluded`: What a command has of a job of the only client.
* `Since`, `Performs`: What a job comes to.
* `Reaches`: Where a call gets to on some course.

## Theorems

* `World.run_bind`, `World.run_perform`: Running a command step by step.
* `World.run_perform_alone`: A job of the only client is its call on the course.
* `follow_leads`: What a call comes to on any course.
* `perform_performs`: What a job comes to on any course.
* `run_carried`: Every run of a host that has a single job is one on a course.
-/

namespace Multidrop

namespace Command

/-- What happens to a command. -/
inductive Happening where
  | turn
  | outside (now : Duration) (wire : Wire)

/-- What a command does to the world. -/
inductive Deed where
  /-- The wire accepts some bytes. -/
  | sent (bytes : List UInt8)
  /-- A call ends. -/
  | ended (task : Task) (started moment : Duration) (result : Call.Result)

/-- The bytes that were sent. -/
def Deed.bytes : Deed → List UInt8
  | .sent bytes => bytes
  | .ended .. => []

/-- All that was sent. -/
def sentOf (log : List Deed) : List UInt8 :=
  log.flatMap Deed.bytes

/-- Where a call has got to on a course. -/
structure Followed where
  seat : Host.Seat
  bus : Bus
  log : List Deed := []
  /-- What has not happened yet. -/
  rest : List Happening := []

/-- The same, with something done before it. -/
def Followed.after (deed : Deed) (f : Followed) : Followed :=
  { f with log := deed :: f.log }

/-- Let a call take its turns on a course. -/
def follow (c : Call) (bus : Bus) : List Happening → Followed
  | [] => { seat := .running c, bus }
  | .outside now wire :: course => follow c (bus.drift now wire) course
  | .turn :: course =>
    let left := (c.step 0 bus).2
    let deed := Deed.sent (left.wire.sent.drop bus.wire.sent.length)
    match (c.step 0 bus).1 with
    | .again next => (follow next left course).after deed
    | .waiting => (follow c left course).after deed
    | .over (client, result) =>
      { seat := .ended client (.finished left.now result)
        bus := left
        log := [deed, .ended c.task c.started left.now result]
        rest := course }

/-- A place to run commands on a course. What is printed is not kept. -/
structure World where
  files : String → Except Transport.Fault (List UInt8)
  bridge : Transport.Endpoint → Except Transport.Fault Wire
  course : List Happening
  /-- What the last call has left. -/
  bus : Bus := {}
  log : List Deed := []
  /-- The call that has not ended, where the course is over. -/
  halted : Option Call := none

namespace World

/-- What has happened when a call begins. -/
def opening (bus : Bus) : List Happening → Bus × List Happening
  | .outside now wire :: course => (bus.drift now wire, course)
  | course => (bus, course)

/-- The call of a job that has not ended. -/
def unfinished : Host.Seat → Option Call
  | .running c => some c
  | .ended .. => none

/-- Carry out a job. -/
def carry (job : Job) (h : Host) (w : World) : (Outcome × Host) × World :=
  let opened := opening h.bus w.course
  let f := follow ({ h with bus := opened.1 }.callOf job) opened.1 opened.2
  ((f.seat.outcome, { bus := f.bus, clients := Host.keepClients h.clients [(job, f.seat)] }),
    { w with
      course := f.rest
      bus := f.bus
      log := w.log ++ f.log
      halted := unfinished f.seat })

/-- A world as the surroundings of a command. -/
def surroundings (build : Build) : Surroundings (StateM World) where
  readFile path := return (← get).files path
  connect endpoint := return (← get).bridge endpoint
  run job h := modifyGet (carry job h)
  print _ := return ()
  build := build

/-- Run a part of a command. -/
def run {α : Type} (w : World) (step : Step (StateM World) α) : Except Failure α × World :=
  StateT.run (ExceptT.run step) w

variable {α β ε : Type} {w : World} {build : Build}

theorem run_pure (value : α) : w.run (pure value) = (.ok value, w) := rfl

theorem run_throw (failure : Failure) :
    w.run (throw failure : Step (StateM World) α) = (.error failure, w) := rfl

/-- What fails is not gone on from. -/
theorem run_bind (step : Step (StateM World) α) (more : α → Step (StateM World) β) :
    w.run (step >>= more) =
      match w.run step with
      | (.ok value, left) => left.run (more value)
      | (.error failure, left) => (.error failure, left) := by
  have hbind : w.run (step >>= more) =
      StateT.run (ExceptT.bindCont more (w.run step).1) (w.run step).2 := rfl
  rw [hbind]
  rcases w.run step with ⟨value | failure, left⟩
  · rfl
  · rfl

theorem run_orFail (failure : ε → Failure) (value : Except ε α) :
    w.run (orFail failure value) =
      match value with
      | .ok value => (.ok value, w)
      | .error e => (.error (failure e), w) := by
  cases value with
  | _ => rfl

theorem run_readFile (path : String) :
    w.run (liftM ((surroundings build).readFile path)) = (.ok (w.files path), w) := rfl

theorem run_connect (endpoint : Transport.Endpoint) :
    w.run (liftM ((surroundings build).connect endpoint)) = (.ok (w.bridge endpoint), w) := rfl

theorem run_print (text : String) :
    w.run (print (surroundings build) text) = (.ok (), w) := rfl

theorem run_perform (context : String) (task : Task) (limit : Option Duration) (h : Host) :
    w.run (perform (surroundings build) context task limit h) =
      match w.carry { task, client := some 0, limit } h with
      | ((.finished _ (.ok answer), h), left) => (.ok (answer, h), left)
      | ((.finished _ (.error e), _), left) => (.error (.ofLink context e), left)
      | ((.cancelled, _), left) => (.error (.ofLink context .closed), left) := by
  rw [perform, run_bind]
  have hlift : w.run (liftM ((surroundings build).run { task, client := some 0, limit } h)) =
      (.ok (w.carry { task, client := some 0, limit } h).1,
        (w.carry { task, client := some 0, limit } h).2) := rfl
  rw [hlift]
  rcases w.carry { task, client := some 0, limit } h with
    ⟨⟨⟨moment, e | answer⟩ | _, h'⟩, left⟩
  · rfl
  · rfl
  · rfl

/-- The world behind the course of a job. -/
def past (w : World) (f : Followed) : World :=
  { w with course := f.rest, bus := f.bus, log := w.log ++ f.log, halted := unfinished f.seat }

/-- What a command has of a job when the only client of its host came to this. -/
def concluded (context : String) (w : World) (f : Followed) :
    Except Failure (Answer × Host) × World :=
  match f.seat.outcome with
  | .finished _ (.ok answer) =>
    (.ok (answer, { bus := f.bus, clients := [f.seat.client] }), w.past f)
  | .finished _ (.error e) => (.error (.ofLink context e), w.past f)
  | .cancelled => (.error (.ofLink context .closed), w.past f)

/-- The job of a host with one client is a call of that client. -/
theorem run_perform_alone (context : String) (task : Task) (limit : Option Duration) {h : Host}
    {client : Client} (hclients : h.clients = [client]) :
    w.run (perform (surroundings build) context task limit h) =
      w.concluded context (follow
        { task, client, started := (opening h.bus w.course).1.now, limit }
        (opening h.bus w.course).1 (opening h.bus w.course).2) := by
  have hcall : ∀ bus, { h with bus }.callOf { task, client := some 0, limit } =
      { task, client, started := bus.now, limit } := by
    intro bus
    rw [Host.callOf, Host.clientOf]
    simp only [hclients]
    rfl
  have hkept : ∀ seat : Host.Seat,
      Host.keepClients h.clients [({ task, client := some 0, limit }, seat)] = [seat.client] := by
    intro seat
    rw [hclients]
    rfl
  rw [run_perform, carry]
  simp only [hcall, hkept]
  generalize follow _ _ _ = f
  rw [concluded]
  rcases f.seat.outcome with ⟨moment, e | answer⟩ | _
  · rfl
  · rfl
  · rfl

/-- What happens before a call begins leaves alone what was sent and queued. -/
theorem opening_carries {client : Client} {data : List UInt8} {bus : Bus}
    (hcarries : bus.Carries client data) (course : List Happening) :
    (opening bus course).1.Carries client data ∧
      (opening bus course).1.wire.sent = bus.wire.sent := by
  rw [opening.eq_def]
  split
  · exact ⟨hcarries, rfl⟩
  · exact ⟨hcarries, rfl⟩

end World

/-! ### What a call comes to -/

variable {begun c c' next : Call} {data sent part : List UInt8} {bus bus' left : Bus}
  {f : Followed} {seat : Host.Seat}

/-- A turn that does not end the call. -/
theorem follow_turn (hnext : c.after (c.step 0 bus).1 = some next) (course : List Happening) :
    follow c bus (.turn :: course) = (follow next (c.step 0 bus).2 course).after
      (.sent ((c.step 0 bus).2.wire.sent.drop bus.wire.sent.length)) := by
  rw [follow]
  rcases hstep : c.step 0 bus with ⟨again | _ | final, left⟩
  · rw [hstep] at hnext
    rw [← Option.some.inj hnext]
  · rw [hstep] at hnext
    rw [← Option.some.inj hnext]
  · rw [hstep] at hnext
    exact absurd hnext nofun

/-- What a call that has its link to itself comes to on a course, where some
    bytes had been sent before. -/
inductive Leads (begun : Call) (data sent : List UInt8) : Followed → Prop where
  | halted {c : Call} {bus : Bus} {parts : List (List UInt8)}
      (hsent : sent ++ parts.flatten = bus.wire.sent) (hunderway : Call.Underway begun data c bus) :
      Leads begun data sent { seat := .running c, bus, log := parts.map .sent }
  | ended (rest : List Happening) {c : Call} {client : Client} {result : Call.Result}
      {bus left : Bus} {parts : List (List UInt8)}
      (hsent : sent ++ parts.flatten = left.wire.sent) (hunderway : Call.Underway begun data c bus)
      (hstep : c.step 0 bus = (.over (client, result), left)) :
      Leads begun data sent {
        seat := .ended client (.finished left.now result)
        bus := left
        log := parts.map .sent ++ [.ended begun.task begun.started left.now result]
        rest }

theorem Leads.after (h : Leads begun data (sent ++ part) f) :
    Leads begun data sent (f.after (.sent part)) := by
  have hcons : ∀ (parts : List (List UInt8)),
      sent ++ (part :: parts).flatten = sent ++ part ++ parts.flatten := by
    intro parts
    rw [List.flatten_cons, List.append_assoc]
  cases h with
  | halted hsent hunderway =>
      rw [← hcons] at hsent
      exact .halted hsent hunderway
  | ended rest hsent hunderway hstep =>
      rw [← hcons] at hsent
      exact .ended rest hsent hunderway hstep

/-- By induction on the course. A turn keeps the invariant of the call, and so
    does whatever happens between two turns. -/
theorem follow_leads (h : Call.Underway begun data c bus) (course : List Happening) :
    Leads begun data bus.wire.sent (follow c bus course) := by
  induction course generalizing c bus with
  | nil =>
      have hsent : bus.wire.sent ++ ([] : List (List UInt8)).flatten = bus.wire.sent :=
        List.append_nil _
      exact .halted hsent h
  | cons happening course ih =>
      cases happening with
      | outside now wire => exact ih (h.drift now wire)
      | turn =>
          -- What the turn has sent is what the log of the rest begins behind.
          have hgrows :=
            List.prefix_iff_eq_append.mp (Call.step_goes h.sound 0 bus).sent_grows
          rcases hmove : (c.step 0 bus).1 with next | _ | ⟨client, result⟩
          · have hafter : c.after (c.step 0 bus).1 = some next := by rw [hmove]; rfl
            have hrest := ih (h.next hafter)
            rw [← hgrows] at hrest
            rw [follow_turn hafter]
            exact hrest.after
          · have hafter : c.after (c.step 0 bus).1 = some c := by rw [hmove]; rfl
            have hrest := ih (h.next hafter)
            rw [← hgrows] at hrest
            rw [follow_turn hafter]
            exact hrest.after
          · have hsent : bus.wire.sent ++
                [(c.step 0 bus).2.wire.sent.drop bus.wire.sent.length].flatten =
                (c.step 0 bus).2.wire.sent := by
              rw [List.flatten_singleton]
              exact hgrows
            -- The log names the call as it was begun.
            have hover : Leads begun data bus.wire.sent _ :=
              .ended course hsent h (Prod.ext hmove rfl)
            rw [← h.task, ← h.started] at hover
            rw [follow, hmove]
            exact hover

/-! ### What a job comes to -/

theorem sentOf_append (log more : List Deed) : sentOf (log ++ more) = sentOf log ++ sentOf more :=
  List.flatMap_append

theorem sentOf_sent (parts : List (List UInt8)) : sentOf (parts.map .sent) = parts.flatten := by
  rw [sentOf, List.flatMap_map]
  exact List.flatMap_id

theorem sentOf_ended (task : Task) (started moment : Duration) (result : Call.Result) :
    sentOf [.ended task started moment result] = [] := rfl

/-- What a job has done to its client and to the world, up to how it ended.
    The client had not sent some bytes. -/
structure Since (owner : Client) (unsent data : List UInt8) (w : World) (ends : List Deed)
    (after : Client) (left : World) : Prop where
  destination : after.destination = owner.destination
  config : after.config = owner.config
  carries : left.bus.Carries after data
  buffer : after.writeBuffer = unsent ∨ after.writeBuffer = []
  log : ∃ parts : List (List UInt8), left.log = w.log ++ (parts.map .sent ++ ends)
  sent : sentOf left.log = left.bus.wire.sent

/-- What a job comes to, where a client has its link to itself. -/
inductive Performs (owner : Client) (unsent data : List UInt8) (task : Task)
    (limit : Option Duration) (context : String) (w : World) :
    Except Failure (Answer × Host) × World → Prop where
  /-- The course is over before the job is. -/
  | halted {c : Call} {left : World} (hsince : Since owner unsent data w [] c.client left)
      (hhalted : left.halted = some c) (htask : c.task = task) (hlimit : c.limit = limit)
      (hsound : c.Sound) (hreception : c.reception.Sound left.bus.link.config.limits) :
      Performs owner unsent data task limit context w (.error (.ofLink context .closed), left)
  | failed {after : Client} {started moment : Duration} {e : Link.Error} {left : World}
      (hsince : Since owner unsent data w [.ended task started moment (.error e)] after left)
      (hhalted : left.halted = none)
      (hwhy : e.isFault = true ∨
        ∃ time, e = .timeout time ∧ limit = some time ∧ started + time ≤ moment) :
      Performs owner unsent data task limit context w (.error (.ofLink context e), left)
  | done {after : Client} {started moment : Duration} {answer : Answer} {left : World}
      (hsince : Since owner unsent data w [.ended task started moment (.ok answer)] after left)
      (hhalted : left.halted = none)
      (hdrained : task = .drain →
        left.bus.wire.sent = left.bus.traffic ∧ after.writeBuffer = []) :
      Performs owner unsent data task limit context w
        (.ok (answer, { bus := left.bus, clients := [after] }), left)

/-- A drain that succeeds has sent all there is. -/
theorem drained {c : Call} {bus : Bus} (h : Call.Underway begun data c bus)
    (htask : c.task = .drain) {answer : Answer}
    (hended : Call.ended (c.step 0 bus).1 = some (.ok answer)) :
    (c.step 0 bus).2.wire.sent = (c.step 0 bus).2.traffic ∧
      (c.clientAfter (c.step 0 bus).1).writeBuffer = [] := by
  have hgoes := Call.step_goes h.sound 0 bus
  rcases hgoes.drained h.sound h.ahead htask hended with ⟨hsent, hbuffer⟩
  -- With nothing in the buffer there is nothing that could have been added.
  have hframes : Frame.group (c.task.frames bus.link c.client) = [] := by
    rw [htask, Task.frames, hbuffer, Client.chunks_nil, List.map_nil]
    rfl
  refine ⟨?_, ?_⟩
  · rw [hsent, hgoes.traffic, hframes, ite_self, List.append_nil]
  · rcases hgoes.buffer with hsame | hnone
    · rw [hsame, hbuffer]
    · exact hnone

variable {owner : Client} {readBuffer writeBuffer : List UInt8} {h : Host} {w : World}

/-- What a call came to on its course is what a command has of the job. -/
theorem Leads.performs {begun : Call} {f : Followed}
    (h : Leads begun data (sentOf w.log) f)
    (hbegun : begun.client = { owner with readBuffer, writeBuffer })
    (hrefuse : ∀ cause, begun.task ≠ .refuse cause)
    (hreceive : ∀ source, begun.task ≠ .receive source) (context : String) :
    Performs owner writeBuffer data begun.task begun.limit context w (w.concluded context f) := by
  have hdestination : begun.client.destination = owner.destination := hbegun ▸ rfl
  have hconfig : begun.client.config = owner.config := hbegun ▸ rfl
  have hunsent : begun.client.writeBuffer = writeBuffer := hbegun ▸ rfl
  cases h with
  -- The course is over before the call: all it has written is in the log.
  | halted hparts hunderway =>
      rename_i c bus parts
      refine .halted ⟨hunderway.destination.trans hdestination, hunderway.config.trans hconfig,
        hunderway.carries, hunsent ▸ hunderway.buffer, ⟨parts, ?_⟩, ?_⟩ rfl hunderway.task
        hunderway.limit hunderway.sound hunderway.reception
      · rw [World.past, List.append_nil]
      · rw [World.past, sentOf_append, sentOf_sent]
        exact hparts
  | ended rest hparts hunderway hstep =>
      rename_i c after result bus left parts
      -- The last turn says what is left of the client, of the wire and of the batch.
      have hafter := hunderway.client 0
      have herror := @Call.step_error 0 c bus left after
      have hdrained := @drained _ data c bus hunderway
      rw [hstep] at hafter hdrained
      rcases hafter with ⟨hdestination', hconfig', hleft, hbuffer⟩
      have hlog : sentOf (w.log ++ (parts.map .sent ++
          [.ended begun.task begun.started left.now result])) = left.wire.sent := by
        rw [sentOf_append, sentOf_append, sentOf_sent, sentOf_ended, List.append_nil]
        exact hparts
      have hsince : Since owner writeBuffer data w
          [.ended begun.task begun.started left.now result] after
          { w with
            course := rest
            bus := left
            log := w.log ++ (parts.map .sent ++
              [.ended begun.task begun.started left.now result])
            halted := none } :=
        ⟨hdestination'.trans hdestination, hconfig'.trans hconfig, hleft, hunsent ▸ hbuffer,
          ⟨parts, rfl⟩, hlog⟩
      cases result with
      | error e =>
          refine .failed hsince rfl ?_
          have hfails := herror
            (fun cause hcause => hrefuse cause (hunderway.task.symm.trans hcause))
            (fun source hsource => hreceive source (hunderway.task.symm.trans hsource))
            hunderway.reception hstep
          rw [hunderway.limit, hunderway.started] at hfails
          exact hfails
      | ok answer =>
          have hall : begun.task = .drain →
              left.wire.sent = left.traffic ∧ after.writeBuffer = [] :=
            fun htask => hdrained (hunderway.task.trans htask) rfl
          exact .done hsince rfl hall

/-- What a job comes to on any course, wherever the wire and the clock are by
    then. -/
theorem perform_performs (build : Build) (task : Task)
    (hclients : h.clients = [{ owner with readBuffer, writeBuffer }])
    (hcarries : h.bus.Carries { owner with readBuffer, writeBuffer } data)
    (hsent : sentOf w.log = h.bus.wire.sent) (hbuilt : task.Built)
    (hrefuse : ∀ cause, task ≠ .refuse cause) (hreceive : ∀ source, task ≠ .receive source)
    (limit : Option Duration) (context : String) :
    Performs owner writeBuffer data task limit context w
      (w.run (perform (World.surroundings build) context task limit h)) := by
  rcases World.opening_carries hcarries w.course with ⟨hcarried, hsame⟩
  let begun : Call := {
    task
    client := { owner with readBuffer, writeBuffer }
    started := (World.opening h.bus w.course).1.now
    limit }
  have hunderway : Call.Underway begun data begun (World.opening h.bus w.course).1 :=
    Call.underway_begun rfl hbuilt hcarried
  have hleads := follow_leads hunderway (World.opening h.bus w.course).2
  rw [hsame, ← hsent] at hleads
  rw [World.run_perform_alone context task limit hclients]
  exact hleads.performs rfl hrefuse hreceive context

/-! ### Runs of a host -/

/-- A call gets to a seat on some course. -/
def Reaches (c : Call) (bus : Bus) (seat : Host.Seat) (left : Bus) : Prop :=
  ∃ course, (follow c bus course).seat = seat ∧ (follow c bus course).bus = left

theorem Reaches.here (c : Call) (bus : Bus) : Reaches c bus (.running c) bus :=
  ⟨[], rfl, rfl⟩

theorem Reaches.outside (now : Duration) (wire : Wire)
    (h : Reaches c (bus.drift now wire) seat left) : Reaches c bus seat left := by
  rcases h with ⟨course, hseat, hleft⟩
  exact ⟨.outside now wire :: course, hseat, hleft⟩

theorem Reaches.turn (hnext : c.after (c.step 0 bus).1 = some next)
    (h : Reaches next (c.step 0 bus).2 seat left) : Reaches c bus seat left := by
  rcases h with ⟨course, hseat, hleft⟩
  refine ⟨.turn :: course, ?_, ?_⟩
  · rw [follow_turn hnext]
    exact hseat
  · rw [follow_turn hnext]
    exact hleft

theorem Reaches.over {client : Client} {result : Call.Result}
    (hstep : c.step 0 bus = (.over (client, result), left)) :
    Reaches c bus (.ended client (.finished left.now result)) left := by
  refine ⟨[.turn], ?_, ?_⟩
  · rw [follow, hstep]
  · rw [follow, hstep]

/-- One course after another. By induction on the first one. -/
theorem Reaches.trans (hfirst : Reaches c bus (.running c') bus') (h : Reaches c' bus' seat left) :
    Reaches c bus seat left := by
  rcases hfirst with ⟨course, hseat, hbus⟩
  induction course generalizing c bus with
  | nil =>
      rw [follow] at hseat hbus
      rw [Host.Seat.running.inj hseat, show bus = bus' from hbus]
      exact h
  | cons happening course ih =>
      cases happening with
      | outside now wire => exact (ih hseat hbus).outside now wire
      | turn =>
          cases hafter : c.after (c.step 0 bus).1 with
          | some next =>
              rw [follow_turn hafter] at hseat hbus
              exact (ih hseat hbus).turn hafter
          | none =>
              -- The first course has left the call running, so no turn ends it.
              rw [follow] at hseat
              rcases hstep : c.step 0 bus with ⟨next | _ | final, after⟩
              · rw [hstep] at hafter
                exact absurd hafter nofun
              · rw [hstep] at hafter
                exact absurd hafter nofun
              · rw [hstep] at hseat
                exact absurd hseat nofun

/-- By induction on the turns. -/
theorem advance_reaches (turns : Nat) (c : Call) (bus : Bus) :
    Reaches c bus (Host.advance 0 turns c bus).1 (Host.advance 0 turns c bus).2 := by
  induction turns, c, bus using Host.advance.induct 0 with
  -- The turn has taken something off the wire.
  | case1 turns c bus next left hstep hless ih =>
      have hafter : c.after (c.step 0 bus).1 = some next := by rw [hstep]; rfl
      rw [Host.advance, hstep]
      simp only [dif_pos hless]
      refine .turn hafter ?_
      rw [hstep]
      exact ih
  -- It has not, and the patience is used up.
  | case2 c bus next left hstep hmore =>
      have hafter : c.after (c.step 0 bus).1 = some next := by rw [hstep]; rfl
      rw [Host.advance, hstep]
      simp only [dif_neg hmore]
      refine .turn hafter ?_
      rw [hstep]
      exact .here next left
  -- It has not, and there is patience left.
  | case3 c bus next left hstep hmore turns ih =>
      have hafter : c.after (c.step 0 bus).1 = some next := by rw [hstep]; rfl
      rw [Host.advance, hstep]
      simp only [dif_neg hmore]
      refine .turn hafter ?_
      rw [hstep]
      exact ih
  | case4 turns c bus left hstep =>
      have hafter : c.after (c.step 0 bus).1 = some c := by rw [hstep]; rfl
      rw [Host.advance, hstep]
      refine .turn hafter ?_
      rw [hstep]
      exact .here c left
  | case5 turns c bus left client result hstep =>
      rw [Host.advance, hstep]
      exact .over hstep

theorem now_lt_nextMoment {limit : Option Duration} {seats : List Host.Seat} {moment : Duration}
    (h : Host.nextMoment? limit seats bus = some moment) : bus.now < moment := by
  rw [Host.nextMoment?] at h
  have hmem := List.min?_mem h
  exact of_decide_eq_true (List.mem_filter.mp hmem).2

/-- Time that passes alone is something that happens outside. -/
theorem drift_wait {moment : Duration} (h : bus.now < moment) :
    bus.drift moment bus.wire = { bus with now := moment } := by
  rw [Bus.drift, Nat.max_eq_right (Nat.le_of_lt h)]
  rfl

theorem runSeats_running {limit : Option Duration} {passes : Nat}
    (hadvance : Host.advance 0 Host.patience c bus = (.running next, left)) :
    Host.runSeats limit (passes + 1) [.running c] bus =
      if Lock.handedOver bus.lock left.lock then Host.runSeats limit passes [.running next] left
      else if limit.any (· ≤ left.now) then Host.cancel 0 [.running next] left
      else
        match Host.nextMoment? limit [.running next] left with
        | none => Host.cancel 0 [.running next] left
        | some moment =>
          Host.runSeats limit passes [.running next] { left with now := moment } := by
  have hpass : Host.pass 0 [.running c] bus =
      ([.running next], left, Lock.handedOver bus.lock left.lock) := by
    rw [Host.pass, hadvance]
    simp only [Host.pass, Host.Seat.isEnded, Bool.false_or, Bool.or_false]
  rw [Host.runSeats, hpass]
  rfl

theorem runSeats_ended {limit : Option Duration} {passes : Nat} {client : Client}
    {outcome : Outcome}
    (hadvance : Host.advance 0 Host.patience c bus = (.ended client outcome, left)) :
    Host.runSeats limit (passes + 1) [.running c] bus = ([.ended client outcome], left) := by
  have hpass : Host.pass 0 [.running c] bus = ([.ended client outcome], left, true) := by
    rw [Host.pass, hadvance]
    simp only [Host.pass, Host.Seat.isEnded, Bool.true_or]
  rw [Host.runSeats, hpass]
  rfl

/-- How a host leaves a single job: what is not over is given up. -/
def givenUp (seat : Host.Seat) (left : Bus) : List Host.Seat × Bus :=
  match seat with
  | .running c => ([.ended c.client .cancelled], { left with lock := left.lock.leave 0 })
  | .ended client outcome => ([.ended client outcome], left)

/-- What a run of a single job comes to. By induction on the passes. -/
theorem runSeats_reaches (limit : Option Duration) (passes : Nat) (c : Call) (bus : Bus) :
    ∃ seat left, Reaches c bus seat left ∧
      Host.runSeats limit passes [.running c] bus = givenUp seat left := by
  induction passes generalizing c bus with
  | zero => exact ⟨.running c, bus, .here c bus, rfl⟩
  | succ passes ih =>
      have hreached := advance_reaches Host.patience c bus
      rcases hadvance : Host.advance 0 Host.patience c bus with
        ⟨next | ⟨client, outcome⟩, left⟩
      · rw [hadvance] at hreached
        rw [runSeats_running hadvance]
        by_cases hhanded : Lock.handedOver bus.lock left.lock = true
        · -- The lock went to somebody, so the host makes another pass at once.
          rw [if_pos hhanded]
          rcases ih next left with ⟨seat, final, hreaches, hrun⟩
          exact ⟨seat, final, hreached.trans hreaches, hrun⟩
        · rw [if_neg hhanded]
          by_cases hup : limit.any (· ≤ left.now) = true
          · -- The time of the host is up, and it gives up the call as it stands.
            rw [if_pos hup]
            exact ⟨.running next, left, hreached, rfl⟩
          · rw [if_neg hup]
            cases hmoment : Host.nextMoment? limit [.running next] left with
            | none => exact ⟨.running next, left, hreached, rfl⟩
            | some moment =>
                -- The host waits, and begins another pass.
                have hdrift := drift_wait (now_lt_nextMoment hmoment)
                rcases ih next { left with now := moment } with ⟨seat, final, hreaches, hrun⟩
                rw [← hdrift] at hreaches
                exact ⟨seat, final, hreached.trans (hreaches.outside moment left.wire), hrun⟩
      · rw [hadvance] at hreached
        rw [runSeats_ended hadvance]
        exact ⟨.ended client outcome, left, hreached, rfl⟩

/-- Every run of a host that has a single job is one on a course. -/
theorem run_carried (limit : Option Duration) (job : Job) (h : Host) :
    ∃ course, ∀ w : World, w.course = course →
      let carried := (w.carry job h).1
      (h.run limit [job]).1 = [carried.1] ∧ (h.run limit [job]).2.clients = carried.2.clients ∧
        (carried.1 ≠ .cancelled → (h.run limit [job]).2 = carried.2) := by
  rcases runSeats_reaches limit Host.patience (h.callOf job) h.bus with
    ⟨seat, left, ⟨course, hseat, hleft⟩, hrun⟩
  -- Nothing happens before the call begins.
  refine ⟨.outside h.bus.now h.bus.wire :: course, fun w hcourse => ?_⟩
  have hopened : World.opening h.bus w.course = (h.bus, course) := by
    rw [hcourse, World.opening, Bus.drift, Nat.max_self]
    rfl
  rw [Host.run, List.map_singleton, hrun, World.carry, hopened]
  simp only [hseat, hleft]
  cases seat with
  | running c => exact ⟨rfl, rfl, fun hnot => absurd rfl hnot⟩
  | ended client outcome => exact ⟨rfl, rfl, fun _ => rfl⟩

end Command

end Multidrop
