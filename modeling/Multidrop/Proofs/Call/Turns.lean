import Multidrop.Proofs.Call.Group
import Multidrop.Proofs.Link.Reception

/-!
# Turns of a Call

Everything a turn of a call can do, said once. `Call.Goes` has a case for each
thing that can become of a call at a turn, and says what it does to the bus
and to the client; `Call.Settles` does the same for what follows when a
reception is over.

Two facts about calls on their way are needed to rule out turns that never
happen: only a call that asks for an answer waits for one, and a drain that is
sending has nothing left in the buffer of its client.

## Main definitions

* `Task.polls`, `Task.isRead`, `Task.receives`, `Task.isShared`: Kinds of
  tasks.
* `Stage.exchanging`: A call that has queued its frames and not ended.
* `Call.heard`: What a turn of a call takes from the wire.
* `Call.kept`: The stream bytes in that.
* `Call.Sound`: What holds of every call on its way.
* `Call.Settles`: Everything that can follow a reception.
* `Call.Goes`: Everything a turn of a call can do.

## Theorems

* `Call.received_settles`: What follows a reception.
* `Call.step_goes`: A turn does one of these things.
-/

namespace Multidrop

/-- What an activity has come to, if it is over. -/
def Turn.result? {σ α : Type} : Turn σ α → Option α
  | .over result => some result
  | _ => none

namespace Task

/-- Whether a task asks the device for stream bytes. -/
def polls : Task → Bool
  | .poll => true
  | .read _ => true
  | .readLine => true
  | _ => false

/-- Whether a task takes stream bytes from the buffer of the client. -/
def isRead : Task → Bool
  | .read _ => true
  | .readLine => true
  | _ => false

/-- Whether a task takes frames from the link. -/
def receives : Task → Bool
  | .receive _ => true
  | .query _ => true
  | task => task.polls

/-- Whether a task leaves its client as it is, so that several of them may be
    under way at once. -/
def isShared : Task → Bool
  | .query _ => true
  | .write _ => true
  | .refuse _ => true
  | _ => false

end Task

/-- Whether a call has queued its frames and goes on to send and receive. -/
def Stage.exchanging : Stage → Bool
  | .sending _ => true
  | .receiving .. => true
  | _ => false

namespace Call

/-- What a turn of a call takes from the wire, if that is the end of a
    reception. -/
def heard (c : Call) (bus : Bus) : Option Reception.Result :=
  match c.stage with
  | .receiving _ _ _ reception =>
    match (reception.step c.onlyFrom bus).1 with
    | .over result => some result
    | _ => none
  | _ => none

/-- The stream bytes a poll keeps of what was heard. -/
def kept (c : Call) : Option Reception.Result → List UInt8
  | some (.ok (some f)) =>
      if c.task.polls then
        Stream.carried Subframe.toHost c.client.config.channel f.payload
      else []
  | _ => []

/-- What holds of every call on its way. -/
def Sound (c : Call) : Prop :=
  match c.stage with
  | .sending _ => c.task = .drain → c.client.writeBuffer = []
  | .receiving .. => c.task.receives = true
  | _ => True

/-- Everything that can follow when a reception is over and stream bytes were
    kept of it. -/
inductive Settles (c : Call) (bus : Bus) : List UInt8 → Move → Prop where
  /-- The call waits for another frame. -/
  | listen {data : List UInt8} {deadline : Option Duration} {early : Bool} {taken : Nat} :
      Settles c bus data (.again { c with
        client := c.client.receive data
        stage := .receiving deadline early taken .start }, bus)
  /-- The call ends. Unless it fails, it has not read from the buffer. -/
  | finish {result : Result} (hread : c.task.isRead = true → ∃ e, result = .error e) :
      Settles c bus [] (.over (c.client, result), { bus with lock := bus.lock.release })
  /-- A read is answered from the buffer. -/
  | answer {answer : Answer} (hbuffered : c.buffered.1 = some answer) :
      Settles c bus []
        (.over (c.buffered.2, .ok answer), { bus with lock := bus.lock.release })
  /-- A read pauses before it polls again. -/
  | pause {moment : Duration} (hbuffered : c.buffered.1 = none) :
      Settles c bus [] (.again { c with client := c.buffered.2, stage := .pausing moment },
        { bus with lock := bus.lock.release })

variable {c c' : Call} {id : Nat} {bus bus' : Bus}

theorem endRound_settles (c : Call) (taken : Nat) (bus : Bus) :
    c.Settles bus [] (c.endRound taken bus) := by
  unfold endRound
  split
  · rename_i htask
    refine .finish fun hread => ?_
    simp only [htask, Task.isRead, Bool.false_eq_true] at hread
  · simp only []
    split
    · rename_i answer hbuffered
      exact .answer hbuffered
    · rename_i hbuffered
      exact .pause hbuffered

theorem lost_settles (c : Call) (taken : Nat) (bus : Bus) :
    c.Settles bus [] (c.lost taken bus) := by
  unfold lost
  split
  · rename_i request htask
    refine .finish fun hread => ?_
    simp only [htask, Task.isRead, Bool.false_eq_true] at hread
  · exact endRound_settles c taken bus

/-- Waiting on without anything kept is waiting on with nothing kept. -/
theorem await_settles (c : Call) (deadline : Option Duration) (taken : Nat) (bus : Bus) :
    c.Settles bus [] (c.await deadline taken bus) := by
  have hreceive : c.client.receive [] = c.client := by
    rw [Client.receive, List.append_nil]
  have hlisten : c.Settles bus [] (.again { c with
      client := c.client.receive []
      stage := .receiving deadline (deadline.all (bus.now < ·)) taken .start }, bus) := .listen
  rw [hreceive] at hlisten
  exact hlisten

/-- A poll keeps the stream bytes of its channel, and nothing of whatever else
    its device answers. -/
theorem takeChunk_settles (c : Call) (taken : Nat) (payload : List UInt8) (bus : Bus) :
    c.Settles bus (Stream.carried Subframe.toHost c.client.config.channel payload)
      (c.takeChunk taken payload bus) := by
  unfold takeChunk Stream.carried
  cases Stream.parse payload with
  | error e => exact .finish fun _ => ⟨_, rfl⟩
  | ok parsed =>
      cases parsed with
      | none => exact endRound_settles c taken bus
      | some chunk =>
          simp only []
          -- Only a chunk for the host and of this channel leaves something in the buffer.
          by_cases hid : chunk.id = Subframe.toHost
          · rw [if_neg (not_not_intro hid)]
            by_cases hchannel : chunk.channel = c.client.config.channel
            · rw [if_neg (not_not_intro hchannel), if_pos ⟨hid, hchannel⟩]
              exact .listen
            · rw [if_pos hchannel, if_neg (fun hc => hchannel hc.2)]
              exact await_settles c _ taken bus
          · rw [if_pos hid, if_neg (fun hc => hid hc.1)]
            exact endRound_settles c taken bus

theorem takeFrame_settles (hreceives : c.task.receives = true) (taken : Nat)
    (f : Frame.Received) (bus : Bus) :
    c.Settles bus (c.kept (some (.ok (some f)))) (c.takeFrame taken f bus) := by
  have hchunk := takeChunk_settles c taken f.payload bus
  rcases c with ⟨task, client, started, limit, stage⟩
  cases task with
  | receive source => exact .finish fun hread => absurd hread Bool.false_ne_true
  | query request =>
      simp only [takeFrame, takeReply]
      split
      · exact .finish fun _ => ⟨_, rfl⟩
      · exact .finish fun hread => absurd hread Bool.false_ne_true
  | poll => exact hchunk
  | read size => exact hchunk
  | readLine => exact hchunk
  | flush => exact absurd hreceives Bool.false_ne_true
  | drain => exact absurd hreceives Bool.false_ne_true
  | write request => exact absurd hreceives Bool.false_ne_true
  | refuse cause => exact absurd hreceives Bool.false_ne_true

/-- What follows a reception, given that the call asked for an answer. -/
theorem received_settles (hreceives : c.task.receives = true) (deadline : Option Duration)
    (early : Bool) (taken : Nat) (result : Reception.Result) (bus : Bus) :
    c.Settles bus (c.kept (some result)) (c.received deadline early taken result bus) := by
  unfold received
  split
  · -- A frame was delivered.
    rename_i f
    exact takeFrame_settles hreceives taken f bus
  · -- There was a frame, but not one to be delivered.
    split
    · rename_i source htask
      -- Only a hearing is answered by this, and that reads nothing.
      refine .finish fun hread => ?_
      simp only [htask, Task.isRead, Bool.false_eq_true] at hread
    · split
      · exact await_settles c deadline taken bus
      · exact lost_settles c taken bus
  · rename_i e
    split
    · exact .finish fun _ => ⟨_, rfl⟩
    · split
      · exact lost_settles c taken bus
      · exact .finish fun _ => ⟨_, rfl⟩

/-- What a turn does to the bus when the call has to wait. -/
inductive Waits (id : Nat) (c : Call) (bus : Bus) : Bus → Prop where
  | inLine (hstage : c.stage = .queued) (hholder : bus.lock.holder ≠ some id) :
      Waits id c bus bus
  | sending {d : Drain} {bus' : Bus} (hstage : c.stage = .sending d)
      (hgoes : d.Goes bus (.waiting, bus')) : Waits id c bus bus'
  | receiving {deadline : Option Duration} {early : Bool} {taken : Nat} {reception : Reception}
      {bus' : Bus} (hstage : c.stage = .receiving deadline early taken reception)
      (hheard : c.heard bus = none) (hstill : bus.Still bus') : Waits id c bus bus'
  | pausing {moment : Duration} (hstage : c.stage = .pausing moment) : Waits id c bus bus

/-- Everything a turn of a call can do. -/
inductive Goes (id : Nat) (c : Call) (bus : Bus) : Move → Prop where
  /-- The request could not be built. -/
  | refuse {e : Link.Error} (hstage : c.stage = .fresh) :
      Goes id c bus (.over (c.client, .error e), bus)
  /-- A read is answered from the buffer. -/
  | answer {answer : Answer} (hstage : c.stage = .fresh)
      (hbuffered : c.buffered.1 = some answer) :
      Goes id c bus (.over (c.buffered.2, .ok answer), bus)
  /-- The call asks for the lock. -/
  | ask (hstage : c.stage = .fresh) (hbuffered : c.buffered.1 = none) :
      Goes id c bus (.again { c with client := c.buffered.2, stage := .queued },
        { bus with lock := bus.lock.request id })
  /-- The call has the lock and queues its frames. -/
  | enter (hstage : c.stage = .queued) (hholder : bus.lock.holder = some id)
      (hfits : ∀ f ∈ c.task.frames bus.link c.client, f.Fits) :
      Goes id c bus (.again { c with client := c.task.relieve c.client, stage := c.opening },
        { bus with link := bus.link.load (c.task.frames bus.link c.client) })
  /-- The call has the lock and nothing that is fit to be queued. -/
  | reject {e : Link.Error} (hstage : c.stage = .queued) (hholder : bus.lock.holder = some id)
      (hnone : Frame.fitting (c.task.frames bus.link c.client) = []) :
      Goes id c bus (.over (c.client, .error e), { bus with lock := bus.lock.release })
  | send {d d' : Drain} {bus' : Bus} (hstage : c.stage = .sending d)
      (hgoes : d.Goes bus (.again d', bus')) :
      Goes id c bus (.again { c with stage := .sending d' }, bus')
  | unsent {d : Drain} {e : Link.Error} {bus' : Bus} (hstage : c.stage = .sending d)
      (hgoes : d.Goes bus (.over (.error e), bus')) :
      Goes id c bus (.over (c.client, .error e), { bus' with lock := bus'.lock.release })
  /-- All is sent, and there is nothing to wait for. -/
  | sent {d : Drain} {answer : Answer} {bus' : Bus} (hstage : c.stage = .sending d)
      (hgoes : d.Goes bus (.over (.ok ()), bus')) (hread : c.task.isRead = false) :
      Goes id c bus (.over (c.client, .ok answer), { bus' with lock := bus'.lock.release })
  /-- All is sent, and the call waits for an answer. -/
  | listen {d : Drain} {deadline : Option Duration} {early : Bool} {taken : Nat} {bus' : Bus}
      (hstage : c.stage = .sending d) (hgoes : d.Goes bus (.over (.ok ()), bus'))
      (hreceives : c.task.receives = true) :
      Goes id c bus (.again { c with stage := .receiving deadline early taken .start }, bus')
  /-- A reception goes on. -/
  | receive {deadline : Option Duration} {early : Bool} {taken : Nat}
      {reception reception' : Reception} {bus' : Bus}
      (hstage : c.stage = .receiving deadline early taken reception)
      (hheard : c.heard bus = none) (hstill : bus.Still bus') :
      Goes id c bus (.again { c with stage := .receiving deadline early taken reception' }, bus')
  /-- A reception is over, or took too long. -/
  | settle {deadline : Option Duration} {early : Bool} {taken : Nat} {reception : Reception}
      {bus' : Bus} {move : Move} (hstage : c.stage = .receiving deadline early taken reception)
      (hstill : bus.Still bus') (hsettles : c.Settles bus' (c.kept (c.heard bus)) move) :
      Goes id c bus move
  | wake {moment : Duration} (hstage : c.stage = .pausing moment) :
      Goes id c bus (.again { c with stage := .fresh }, bus)
  | wait {bus' : Bus} (hwaits : Waits id c bus bus') : Goes id c bus (.waiting, bus')
  /-- The time of the call is up. -/
  | expire {e : Link.Error} {bus' : Bus} (hwaits : Waits id c bus bus') :
      Goes id c bus (.over (c.client, .error e), { bus' with lock := bus'.lock.leave id })

theorem start_goes (hstage : c.stage = .fresh) (id : Nat) (bus : Bus) :
    Goes id c bus (c.start id bus) := by
  unfold start
  split
  · exact .refuse hstage
  · unfold enqueue
    simp only []
    split
    · rename_i answer hbuffered
      exact .answer hstage hbuffered
    · rename_i hbuffered
      exact .ask hstage hbuffered

theorem enter_goes (hstage : c.stage = .queued) (hholder : bus.lock.holder = some id) :
    Goes id c bus (c.enter bus) := by
  by_cases hfits : ∀ f ∈ c.task.frames bus.link c.client, f.Fits
  · -- A request that could not be built has no frames, and none that does not fit.
    by_cases hrefuse : ∃ cause, c.task = .refuse cause
    · rcases hrefuse with ⟨cause, htask⟩
      have hnone : Frame.fitting (c.task.frames bus.link c.client) = [] := by
        rw [htask]
        rfl
      simp only [enter, htask]
      exact .reject hstage hholder hnone
    · rw [enter_of_fits (fun cause htask => hrefuse ⟨cause, htask⟩) hfits]
      exact .enter hstage hholder hfits
  · rcases enter_of_not_fits hfits with ⟨e, henter⟩
    rw [henter]
    exact .reject hstage hholder (Frame.fitting_of_not_fits hfits)

theorem sent_goes {d : Drain} (hstage : c.stage = .sending d)
    (hgoes : d.Goes bus (.over (.ok ()), bus')) : Goes id c bus (c.sent bus') := by
  rcases c with ⟨task, client, started, limit, stage⟩
  cases task with
  | flush => exact .sent hstage hgoes rfl
  | receive source => exact .sent hstage hgoes rfl
  | drain => exact .sent hstage hgoes rfl
  | write request => exact .sent hstage hgoes rfl
  | refuse cause => exact .sent hstage hgoes rfl
  | poll => exact .listen hstage hgoes rfl
  | read size => exact .listen hstage hgoes rfl
  | readLine => exact .listen hstage hgoes rfl
  | query request => exact .listen hstage hgoes rfl

/-- A turn of a call whose time is not limited. -/
theorem work_goes (hsound : c.Sound) (id : Nat) (bus : Bus) :
    Goes id c bus (c.work id bus) := by
  unfold work
  -- One case for each stage, from the call that is fresh to the read that pauses.
  split
  · rename_i hstage
    exact start_goes hstage id bus
  · rename_i hstage
    split
    · rename_i hholder
      exact enter_goes hstage hholder
    · rename_i hholder
      exact .wait (.inLine hstage hholder)
  · rename_i d hstage
    have hgoes := d.step_goes bus
    split
    · rename_i d' bus' hstep
      rw [hstep] at hgoes
      exact .send hstage hgoes
    · rename_i bus' hstep
      rw [hstep] at hgoes
      exact .wait (.sending hstage hgoes)
    · rename_i e bus' hstep
      rw [hstep] at hgoes
      exact .unsent hstage hgoes
    · rename_i bus' hstep
      rw [hstep] at hgoes
      exact sent_goes hstage hgoes
  · rename_i deadline early taken reception hstage
    have hstill := reception.step_still c.onlyFrom bus
    -- A call that asked for nothing would be at a loss with what it receives.
    have hreceives : c.task.receives = true := by
      simpa only [Sound, hstage] using hsound
    split
    · rename_i reception' bus' hstep
      rw [hstep] at hstill
      have hheard : c.heard bus = none := by
        simp only [heard, hstage, hstep]
      exact .receive hstage hheard hstill
    · rename_i bus' hstep
      rw [hstep] at hstill
      have hheard : c.heard bus = none := by
        simp only [heard, hstage, hstep]
      split
      · have hsettles := lost_settles c taken bus'
        refine .settle hstage hstill ?_
        rw [hheard]
        exact hsettles
      · exact .wait (.receiving hstage hheard hstill)
    · rename_i result bus' hstep
      rw [hstep] at hstill
      have hheard : c.heard bus = some result := by
        simp only [heard, hstage, hstep]
      refine .settle hstage hstill ?_
      rw [hheard]
      exact received_settles hreceives deadline early taken result bus'
  · rename_i moment hstage
    split
    · exact .wake hstage
    · exact .wait (.pausing hstage)

/-- A turn does one of the things a turn can do. -/
theorem step_goes (hsound : c.Sound) (id : Nat) (bus : Bus) :
    Goes id c bus (c.step id bus) := by
  have hgoes := work_goes hsound id bus
  unfold step
  split
  · rename_i bus' hwork
    rw [hwork] at hgoes
    -- Time runs out for a call that has to wait, never for one that gets on.
    have hwaits : Waits id c bus bus' := by
      cases hgoes with
      | settle hstage hstill hsettles =>
          generalize c.kept (c.heard bus) = data at hsettles
          cases hsettles
      | wait hwaits => exact hwaits
    split
    · exact hgoes
    · split
      · exact .expire hwaits
      · exact hgoes
  · exact hgoes

end Call

end Multidrop
