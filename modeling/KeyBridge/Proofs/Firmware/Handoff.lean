import KeyBridge.Firmware.Schedule
import KeyBridge.Proofs.ByteRing.Invariant

/-!
# The hand-off of events

The coordinator looks whether the channel to the task for the host has room before it takes a byte
out of the ring, and hands over the event of this byte later. In between the interface task can
interrupt it, and the task for the host can take events. A `Handoff` is a board whose coordinator
may have stopped anywhere in its iteration, with the events that have been received from the channel
and those that the decoder has produced.

Nobody but the coordinator puts events into the channel, so that the room it has seen is still there
when it needs it. This is the invariant `Handoff.Sound`.

## Key results

- `event_drainOne`: the coordinator hands over what the decoder makes of the byte that it takes
- `parts_of_attached` / `parts_of_detached`: the parts of an iteration with nothing in between are
  one `Board.poll`
- `hidTurn_eq_receive`: a turn of the task for the host receives events until there are none
- `Sound.step`: what every move keeps
- `no_event_lost`: every event arrives, for every interleaving
-/

namespace KeyBridge.Firmware

/-! ## Channels -/

namespace Board

variable (b : Board)

@[simp] theorem events_say (m : Message) : (b.say m).events = b.events := rfl

@[simp] theorem events_restart : b.restart.events = b.events := rfl

/-- The commands that wait after some words were offered to those that do. -/
def commandsAfter (waiting words : List UInt32) : List UInt32 :=
  words.foldl
    (fun waiting word => if waiting.length < commandRoom then waiting ++ [word] else waiting)
    waiting

/-- Offered words go into a queue of their own. -/
theorem foldl_queueCommand (words : List UInt32) :
    words.foldl queueCommand b = { b with commands := commandsAfter b.commands words } := by
  induction words generalizing b with
  | nil => rfl
  | cons word words ih =>
    rw [List.foldl_cons, ih]
    by_cases hroom : b.commands.length < commandRoom
    · simp [queueCommand, acceptsCommand, commandsAfter, hroom]
    · simp [queueCommand, acceptsCommand, commandsAfter, hroom]

@[simp] theorem events_settlePort (s : PortStep 32) : (b.settlePort s).events = b.events := by
  simp only [settlePort, foldl_queueCommand]

@[simp] theorem events_takeWords (raws : List UInt32) : (b.takeWords raws).events = b.events := by
  induction raws generalizing b with
  | nil => rfl
  | cons raw rest ih =>
    simp only [takeWords]
    split
    · exact ih b
    · split
      · rw [ih, events_settlePort]
      · simp

@[simp] theorem events_sendCommand (word : UInt32) : (b.sendCommand word).events = b.events := by
  unfold sendCommand
  split
  · rfl
  · split <;> rfl

/-- What the interface task receives leaves the events. -/
theorem events_interfaceReceives : b.interfaceReceives.events = b.events := by
  unfold interfaceReceives
  split
  · rfl
  · simp only
    split <;> exact events_takeWords _ _

/-- What the interface task sends leaves the events. -/
theorem events_interfaceSends : b.interfaceSends.events = b.events := by
  have hfold : ∀ (words : List UInt32) (b : Board),
      (words.foldl sendCommand b).events = b.events := by
    intro words
    induction words with
    | nil => exact fun _ => rfl
    | cons word words ih => exact fun b => (ih _).trans (events_sendCommand b word)
  exact hfold _ _

/-- A turn of the interface task leaves the events. -/
theorem events_interfaceTurn : b.interfaceTurn.events = b.events := by
  have hsends := b.interfaceReceives.events_interfaceSends.trans b.events_interfaceReceives
  unfold interfaceTurn interfaceRestarts
  split
  · exact hsends
  · exact hsends

theorem events_ledTurn : b.ledTurn.events = b.events := by
  unfold ledTurn
  split <;> rfl

/-- A turn of the main task leaves the events. -/
theorem events_mainTurn : b.mainTurn.events = b.events := by
  unfold mainTurn
  split
  · split <;> rfl
  · rfl

variable {b : Board}

/-- An event for which there is room gets into the channel. -/
theorem deliver_of_room (h : b.acceptsEvent = true) (e : Event) :
    b.deliver e = { b with events := b.events ++ [e] } :=
  if_pos h

/-- The channel takes another event exactly if it is not full. -/
theorem acceptsEvent_iff : b.acceptsEvent = true ↔ b.events.length < eventRoom :=
  decide_eq_true_iff

end Board

/-! ## Bytes -/

namespace Handoff

/-- The byte that the reader of a ring has taken from it, as can be told from where the reader
stands. -/
def taken? (before after : ByteRing 32) : Option UInt8 :=
  if after.liveTail = before.liveTail then none else some (before.slot before.liveTail)

@[simp] theorem taken?_self (ring : ByteRing 32) : taken? ring ring = none := if_pos rfl

/-- A reader that takes notice of discards has not taken a byte. -/
@[simp] theorem taken?_settle (ring : ByteRing 32) : taken? ring ring.settle = none :=
  if_pos ring.liveTail_settle

/-- The slot after one is another one. -/
theorem after_ne (i : Nat) : ByteRing.after i ≠ i := by
  simp only [ByteRing.after, ByteRing.slotCount]
  omega

/-- The byte that comes out of a ring is the one that its reader has taken. -/
theorem taken?_get (ring : ByteRing 32) : taken? ring ring.get.2 = ring.get.1 := by
  simp only [ByteRing.get]
  split
  · exact taken?_settle ring
  · have hlive : ({ ring.settle with tail := ByteRing.after ring.settle.tail } :
        ByteRing 32).liveTail = ByteRing.after ring.liveTail := if_pos rfl
    rw [taken?, hlive, if_neg (after_ne _)]
    rfl

/-- The coordinator hands over what its decoder makes of the byte that it takes, and nothing when it
takes none. -/
theorem event_drainOne (c : Coordinator) (ring : ByteRing 32) (g : BitVec 32) (ready : Bool) :
    (c.drainOne ring g ready).event.toList =
      ((taken? ring (c.drainOne ring g ready).ring).bind fun byte =>
        (c.decoder.feed byte).2).toList := by
  have htaken := taken?_get ring
  unfold Coordinator.drainOne
  split
  · rcases hget : ring.get with ⟨_ | byte, rest⟩
    · rw [hget] at htaken
      simp [htaken]
    · rw [hget] at htaken
      simp [htaken]
  · simp

/-! ## Interleavings -/

/-- How far the coordinator has got with its iteration. -/
inductive Stage where
  | resting
  /-- The generation of the ring has been read. -/
  | looked (generation : BitVec 32)
  /-- The port has looked at the time and given its status. -/
  | serviced (generation : BitVec 32) (status : PortStatus) (outcome : Outcome)
  /-- The status has been followed. -/
  | synced (generation : BitVec 32) (outcome : Outcome)
  /-- The coordinator knows whether the channel has room. -/
  | checked (generation : BitVec 32) (room : Bool) (outcome : Outcome)
  /-- A byte has gone through the decoder, unless the coordinator had to wait, and an event may have
  come out. -/
  | drained (event : Option Event) (outcome : Outcome)
deriving DecidableEq, Repr

/-- The event that the coordinator is about to hand over. -/
def Stage.event? : Stage → Option Event
  | drained e _ => e
  | resting | looked _ | serviced _ _ _ | synced _ _ | checked _ _ _ => none

/-- Whether the coordinator relies on the channel to have room. -/
def Stage.needsRoom : Stage → Bool
  | checked _ room _ => room
  | drained e _ => e.isSome
  | resting | looked _ | serviced _ _ _ | synced _ _ => false

end Handoff

/-- A board whose coordinator may be in the middle of an iteration. -/
structure Handoff where
  board : Board
  stage : Handoff.Stage := .resting
  /-- The events that the task for the host has received. -/
  received : List Event := []
  /-- The events that the decoder has produced, from the bytes that were taken out of the ring. -/
  produced : List Event := []
deriving Repr

namespace Handoff

/-- The next part of an iteration of the coordinator. -/
def part (h : Handoff) : Handoff :=
  let b := h.board
  match h.stage with
  | .resting => { h with stage := .looked b.ring.generation }
  | .looked g =>
    let leds := b.hostLeds
    let b := { b with hostLeds := none }
    match b.port with
    | none => { h with board := b, stage := .resting }
    | some port =>
      let port := leds.elim port port.setLeds
      let idle := (Chip.LineReading.ofLevel (Chip.pinLevel b.levels b.machine.clockPin)).idle
      let s := port.tick b.ring (fun _ => b.acceptsCommand) (.ofNat b.now) idle
      let port := (s.port.drainLog .empty).1
      { h with
        board := b.settlePort { s with port }
        stage := .serviced g port.status s.outcome }
  | .serviced g status outcome =>
    let (coordinator, change) := b.coordinator.sync status
    { h with
      board := { b with coordinator, ready? := change <|> b.ready? }
      stage := .synced g outcome }
  | .synced g outcome => { h with stage := .checked g b.acceptsEvent outcome }
  | .checked g room outcome =>
    let d := b.coordinator.drainOne b.ring g room
    { h with
      board := { b with coordinator := d.coordinator, ring := d.ring }
      stage := .drained d.event outcome
      produced := h.produced ++
        ((taken? b.ring d.ring).bind fun byte => (b.coordinator.decoder.feed byte).2).toList }
  | .drained e outcome =>
    let b := e.elim b b.deliver
    { h with
      board := { b with restartDue := b.restartDue || outcome == .restart }
      stage := .resting }

/-- The task for the host receives an event, if there is one. -/
def receive (h : Handoff) : Handoff :=
  let (e, b) := h.board.takeEvent
  { h with
    board := e.elim b fun e => b.say (Board.eventMessage e)
    received := h.received ++ e.toList }

/-- What can happen to a board. -/
inductive Move where
  /-- The coordinator goes on with its iteration. -/
  | part
  /-- The task for the host receives an event. -/
  | receive
  /-- The interface task has a turn. -/
  | interface
  /-- The LED task has a turn. -/
  | led
  /-- The main task has a turn. -/
  | main
  /-- Words arrive at the state machine. -/
  | words (raws : List UInt32)
  /-- The host wants other lock LEDs. -/
  | hostLeds (wanted : LockLeds)
  /-- The pins change. -/
  | levels (levels : UInt32)
  /-- Time passes. -/
  | advance (milliseconds : Nat)
deriving DecidableEq, Repr

/-- The board after a move. -/
def step (h : Handoff) : Move → Handoff
  | .part => h.part
  | .receive => h.receive
  | .interface => { h with board := h.board.interfaceTurn }
  | .led => { h with board := h.board.ledTurn }
  | .main => { h with board := h.board.mainTurn }
  | .words raws => { h with board := h.board.receiveWords raws }
  | .hostLeds wanted => { h with board := { h.board with hostLeds := some wanted } }
  | .levels levels => { h with board := { h.board with levels } }
  | .advance milliseconds => { h with board := h.board.advance milliseconds }

/-- The board after a run of moves. -/
def run (h : Handoff) (moves : List Move) : Handoff := moves.foldl step h

variable {h : Handoff} {b : Board}

/-! ## Iterations and turns -/

/-- Six parts with nothing in between are one iteration. -/
theorem parts_of_attached {port : Port} (hp : b.port = some port) :
    let h := run { board := b } (List.replicate 6 .part)
    h.board = b.poll.1 ∧ h.stage = .resting := by
  obtain ⟨format, machine, led, _, ring, coordinator, commands, events, restartDue, dataReady,
    ready?, hostLeds, received, sending, levels, now, mainSince, coordinatorSince, paused, messages,
    requests⟩ := b
  subst hp
  simp only [Board.poll, Coordinator.poll, run, List.replicate, List.foldl, step, part]
  generalize Port.tick _ _ _ _ _ = s
  obtain ⟨port, ring, offered, outcome⟩ := s
  -- The rest of the iteration does not look at the commands that wait.
  simp only [Board.settlePort, Board.foldl_queueCommand]
  exact ⟨rfl, trivial⟩

/-- Without a port an iteration has two parts, and nothing comes of it. -/
theorem parts_of_detached (hp : b.port = none) :
    let h := run { board := b } (List.replicate 2 .part)
    h.board = b.poll.1 ∧ h.stage = .resting := by
  simp only [run, List.replicate, List.foldl, step, part, Board.poll, hp, and_self]

/-- From an empty channel nothing is received. -/
theorem receive_of_nil (h : Handoff) (hnil : h.board.events = []) : h.receive = h := by
  simp [receive, Board.takeEvent, hnil]

/-- The first event of the channel is the one that is received. -/
theorem receive_of_cons (h : Handoff) {e : Event} {es : List Event}
    (hcons : h.board.events = e :: es) :
    h.receive =
      { h with
        board := { h.board with events := es }.say (Board.eventMessage e)
        received := h.received ++ [e] } := by
  simp [receive, Board.takeEvent, hcons]

/-- A turn of the task for the host receives events until there are none. -/
theorem hidTurn_eq_receive (h : Handoff) :
    run h (List.replicate h.board.events.length .receive) =
      { h with board := h.board.hidTurn, received := h.received ++ h.board.events } := by
  generalize hevents : h.board.events = es
  induction es generalizing h with
  | nil =>
    have hturn : h.board.hidTurn = h.board := by
      simp only [Board.hidTurn, hevents, List.map_nil, List.append_nil]
      rw [← hevents]
    rw [hturn, List.append_nil]
    rfl
  -- The first event is received, and the turn goes on with the others.
  | cons e es ih =>
    have hrest := ih { h with
      board := { h.board with events := es }.say (Board.eventMessage e)
      received := h.received ++ [e] } rfl
    rw [← h.receive_of_cons hevents] at hrest
    refine Eq.trans hrest ?_
    simp [receive_of_cons h hevents, Board.hidTurn, Board.say, hevents]

/-! ## The invariant -/

/-- No event has been lost, and none will be. -/
structure Sound (h : Handoff) : Prop where
  /-- The decoder has produced what has been received, then what waits in the channel, then what the
  coordinator is about to hand over. -/
  flow : h.received ++ h.board.events ++ h.stage.event?.toList = h.produced
  length_le : h.board.events.length ≤ Board.eventRoom
  /-- The room that the coordinator relies on is there. -/
  room : h.stage.needsRoom = true → h.board.acceptsEvent = true

/-- A board at rest with an empty channel has lost nothing. -/
theorem sound_start (hb : b.events = []) : Sound { board := b } where
  flow := by rw [hb]; rfl
  length_le := by rw [hb]; exact Nat.zero_le _
  room := nofun

/-- A move that leaves the events of the board as they are loses none. -/
theorem Sound.of_events (hs : h.Sound) (hb : b.events = h.board.events) :
    Sound { h with board := b } where
  flow := by
    rw [hb]
    exact hs.flow
  length_le := hb ▸ hs.length_le
  room hneeds := by
    rw [Board.acceptsEvent, hb]
    exact hs.room hneeds

/-- The task for the host loses no event, and leaves room behind. -/
theorem Sound.receive (hs : h.Sound) : h.receive.Sound := by
  cases hevents : h.board.events with
  | nil =>
    rw [h.receive_of_nil hevents]
    exact hs
  | cons e es =>
    have hlength := hs.length_le
    rw [hevents, List.length_cons] at hlength
    rw [h.receive_of_cons hevents]
    refine ⟨?_, Nat.le_of_succ_le hlength, fun _ => Board.acceptsEvent_iff.mpr hlength⟩
    have hflow := hs.flow
    rw [hevents] at hflow
    simpa using hflow

/-- The coordinator hands over an event only if it has seen room for it, and nobody has filled this
room since. -/
theorem Sound.part (hs : h.Sound) : h.part.Sound := by
  obtain ⟨b, stage, received, produced⟩ := h
  obtain ⟨hflow, hlength, hroom⟩ := hs
  cases stage with
  | resting => exact ⟨hflow, hlength, nofun⟩
  | looked g =>
    simp only [Handoff.part]
    split
    · exact ⟨hflow, hlength, nofun⟩
    · refine ⟨?_, ?_, nofun⟩
      · rw [Board.events_settlePort]
        exact hflow
      · rw [Board.events_settlePort]
        exact hlength
  | serviced g status outcome => exact ⟨hflow, hlength, nofun⟩
  | synced g outcome => exact ⟨hflow, hlength, id⟩
  | checked g room outcome =>
    refine ⟨?_, hlength, ?_⟩
    · simp only [Stage.event?, Option.toList_none, List.append_nil] at hflow
      -- The event about to be handed over is the one that was just produced.
      simp only [Handoff.part, Stage.event?, event_drainOne, hflow]
    · -- Without room no byte goes through the decoder.
      cases room with
      | true => exact fun _ => hroom rfl
      | false => exact nofun
  | drained e outcome =>
    cases e with
    | none => exact ⟨hflow, hlength, nofun⟩
    | some e =>
      -- The room was seen before, and only the coordinator could have filled it.
      have haccepts := hroom rfl
      have hlt := Board.acceptsEvent_iff.mp haccepts
      simp only [Handoff.part, Option.elim_some, Board.deliver_of_room haccepts]
      refine ⟨?_, ?_, nofun⟩
      · simpa [Stage.event?] using hflow
      · rw [List.length_append]
        exact hlt

/-- What every move keeps. -/
theorem Sound.step (hs : h.Sound) (m : Move) : (h.step m).Sound := by
  cases m with
  | part => exact hs.part
  | receive => exact hs.receive
  | interface => exact hs.of_events h.board.events_interfaceTurn
  | led => exact hs.of_events h.board.events_ledTurn
  | main => exact hs.of_events h.board.events_mainTurn
  | words | hostLeds | levels | advance => exact hs.of_events rfl

/-- No run loses an event. -/
theorem Sound.run (hs : h.Sound) (moves : List Move) : (h.run moves).Sound := by
  induction moves generalizing h with
  | nil => exact hs
  | cons m moves ih => exact ih (hs.step m)

/-- Only the coordinator goes on with its iteration. -/
theorem stage_step {m : Move} (hm : m ≠ .part) : (h.step m).stage = h.stage := by
  cases m with
  | part => contradiction
  | receive | interface | led | main | words | hostLeds | levels | advance => rfl

/-- The coordinator gets on by its own parts only. -/
theorem stage_run {moves : List Move} (hmoves : .part ∉ moves) :
    (h.run moves).stage = h.stage := by
  induction moves generalizing h with
  | nil => rfl
  | cons m moves ih =>
    rw [List.mem_cons, not_or] at hmoves
    exact (ih hmoves.2).trans (stage_step (Ne.symm hmoves.1))

/-- A coordinator that has found the channel full takes nothing from the ring. -/
theorem part_of_full {g : BitVec 32} {outcome : Outcome}
    (hstage : h.stage = .checked g false outcome) :
    h.part = { h with stage := .drained none outcome } := by
  obtain ⟨b, stage, received, produced⟩ := h
  subst hstage
  simp [Handoff.part, Coordinator.drainOne]

/-! ## All interleavings -/

/-- A board whose channel is empty at first, after any interleaving of the parts of the iterations
of the coordinator with receptions of the task for the host and with all else that can happen. The
events that have been received, followed by those in the channel, are those that the decoder has
produced, all but one that the coordinator is just about to hand over; between two iterations there
is none. The channel holds no more than it can. When the coordinator hands over an event there is
room for it. An iteration that finds the channel full takes no byte, even if the channel has room
again when it comes to the ring. -/
theorem no_event_lost (b : Board) (hb : b.events = []) (moves : List Move) :
    let h := run { board := b } moves
    h.received ++ h.board.events ++ h.stage.event?.toList = h.produced ∧
      (h.stage = .resting → h.received ++ h.board.events = h.produced) ∧
      h.board.events.length ≤ 16 ∧
      (∀ e outcome, h.stage = .drained (some e) outcome →
        h.board.acceptsEvent = true ∧ h.part.board.events = h.board.events ++ [e]) ∧
      ∀ g outcome, h.stage = .synced g outcome → h.board.events.length = 16 →
        ∀ others, .part ∉ others →
          let h' := h.part.run others
          h'.part.board = h'.board ∧ h'.part.produced = h'.produced := by
  intro h
  have hs : h.Sound := (sound_start hb).run moves
  refine ⟨hs.flow, ?_, hs.length_le, ?_, ?_⟩
  · intro hstage
    have hflow := hs.flow
    rw [hstage] at hflow
    simpa [Stage.event?] using hflow
  -- The event that came out of the decoder finds the room that was seen.
  · intro e outcome hstage
    have haccepts := hs.room (by rw [hstage]; rfl)
    refine ⟨haccepts, ?_⟩
    simp only [Handoff.part, hstage, Option.elim_some, Board.deliver_of_room haccepts]
  -- A full channel is seen as one, and whatever the others do the coordinator takes no byte.
  · intro g outcome hstage hfull others hothers h'
    have haccepts : h.board.acceptsEvent = false := by
      rw [Board.acceptsEvent, hfull]
      rfl
    have hstage' : h'.stage = .checked g false outcome := by
      rw [stage_run hothers]
      simp only [Handoff.part, hstage, haccepts]
    rw [part_of_full hstage']
    exact ⟨rfl, rfl⟩

/-- The word that the state machine receives for a byte. -/
def raw (byte : UInt8) : UInt32 := (Wire.Frame.ofByte byte).toWord <<< 21

/-- A keyboard on its pins. -/
def keyboard : Board := .wire {} { dataPin := 2, clockPin := 3, led := none } 125000000

/-- The keyboard becomes ready and two keys go down. The task for the host receives the first of
them while the coordinator is in the middle of its iteration for the second. -/
def typed : List Move :=
  [.words ([0xAA, 0xAB, 0x83, 0x1C, 0x32].map raw), .interface] ++ List.replicate 10 .part ++
    [.receive, .part, .part]

/-- A key is typed while the interface task and the task for the host come in between, and its event
arrives. -/
theorem no_event_lost_typed :
    let h := run { board := keyboard } typed
    h.received = [.press 0x1C] ∧ h.received ++ h.board.events = [.press 0x1C, .press 0x32] := by
  have hresting : (run { board := keyboard } typed).stage = .resting := by decide +kernel
  have hproduced : (run { board := keyboard } typed).produced = [.press 0x1C, .press 0x32] := by
    decide +kernel
  obtain ⟨-, hflow, -⟩ := no_event_lost keyboard rfl typed
  exact ⟨by decide +kernel, (hflow hresting).trans hproduced⟩

end Handoff

end KeyBridge.Firmware
