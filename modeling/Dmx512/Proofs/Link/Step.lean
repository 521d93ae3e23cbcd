import Dmx512.Link.Interrupt
import Dmx512.Proofs.Line.History
import Dmx512.Proofs.Transmission.Invariant
import Mathlib.Logic.Relation

/-!
# What a link can do

`Step` lists, once, everything that can happen to a link: what it takes from
the line, each phase of the transmit sequence, and what the foreground sets,
starts, stops or orders. A step tells the engine, the stores and the journal
behind it completely; of the hardware it says nothing, so that whatever the
hardware did is allowed for.

An invariant of a link is an invariant of its steps. The kinds of steps tell
apart what runs may contain: interrupts alone, or also what leaves a running
sequencer alone, or anything.
-/

namespace Dmx512

open Standard

/-- A link without its hardware. -/
structure Scene (d r : Nat) where
  engine : Engine
  journal : Journal
  dmxStore : Frame.Store DmxFrame d
  rdmStore : Frame.Store RdmFrame r

def Link.scene {H : Type} {d r : Nat} (link : Link H d r) : Scene d r where
  engine := link.cell.value
  journal := link.line.journal
  dmxStore := link.dmxStore
  rdmStore := link.rdmStore

/-- The order that brings an alarm in line with a deadline. -/
def alarmOrder (alarm : Alarm) : Option Micros → Order
  | some deadline => .setAlarm alarm deadline
  | none => .cancelAlarm alarm

namespace Scene

variable {d r : Nat}

def note (s : Scene d r) (time : Micros) (event : Event) : Scene d r :=
  { s with journal := ⟨time, event⟩ :: s.journal }

def extend (s : Scene d r) (entries : Journal) : Scene d r :=
  { s with journal := entries ++ s.journal }

def order (s : Scene d r) (time : Micros) (order : Order) : Scene d r := s.note time (.order order)

def withReceiver (s : Scene d r) (receiver : Receiver) : Scene d r :=
  { s with engine := { s.engine with receiver } }

def withTransmitter (s : Scene d r) (transmitter : Transmitter) : Scene d r :=
  { s with engine := { s.engine with transmitter } }

def withRunning (s : Scene d r) (running : Bool) : Scene d r :=
  { s with engine := { s.engine with running } }

def publish (s : Scene d r) (time : Micros) : Option Frame → Scene d r
  | none => s
  | some (.dmx frame) =>
    { s.note time (.published (.dmx frame)) with dmxStore := s.dmxStore.push frame }
  | some (.rdm frame) =>
    { s.note time (.published (.rdm frame)) with rdmStore := s.rdmStore.push frame }

def watch (s : Scene d r) (time : Micros) (watchdog : Option Micros) : Scene d r :=
  { s.order time (alarmOrder .receiveTimeout watchdog) with
    engine := { s.engine with watchdog } }

def sync (s : Scene d r) (time : Micros) : Scene d r :=
  if s.engine.receiver.deadline = s.engine.watchdog then s
  else s.watch time s.engine.receiver.deadline

/-- Take a direction, of which the pin has taken the level; each entry has its own time. -/
def turn (s : Scene d r) (driven time : Micros) (direction : Direction) : Scene d r :=
  ({ s with engine := { s.engine with direction } }.note driven
    (.pin direction.pinLevel true)).note time (.turned direction)

/-- Start the sequencer of the direction; each order has its own time. -/
def start (s : Scene d r) (first second : Micros) : Scene d r :=
  match s.engine.direction with
  | .input =>
    (((s.withReceiver s.engine.receiver.reset).order first .clearReceive).order second
      (.allowReceive true)).withRunning true
  | .output =>
    (((s.withTransmitter s.engine.transmitter.start).note first .clockRead).order second
      (.setAlarm .transmit (first + startDelay))).withRunning true

/-- Stop the sequencer of the direction; each order has its own time. -/
def halt (s : Scene d r) (first second third : Micros) : Scene d r :=
  match s.engine.direction with
  | .input =>
    (((s.order first (.allowReceive false)).withReceiver s.engine.receiver.reset).sync
      second).withRunning false
  | .output =>
    ((((s.order first (.allowTransmit false)).order second (.setBreak false)).withTransmitter
      s.engine.transmitter.stop).order third (.cancelAlarm .transmit)).withRunning false

section Directions

variable {s : Scene d r} (first second third : Micros)

theorem start_input (input : s.engine.direction = .input) :
    s.start first second =
      (((s.withReceiver s.engine.receiver.reset).order first .clearReceive).order second
        (.allowReceive true)).withRunning true := by
  rw [start, input]

theorem start_output (output : s.engine.direction = .output) :
    s.start first second =
      (((s.withTransmitter s.engine.transmitter.start).note first .clockRead).order second
        (.setAlarm .transmit (first + startDelay))).withRunning true := by
  rw [start, output]

theorem halt_input (input : s.engine.direction = .input) :
    s.halt first second third =
      (((s.order first (.allowReceive false)).withReceiver s.engine.receiver.reset).sync
        second).withRunning false := by
  rw [halt, input]

theorem halt_output (output : s.engine.direction = .output) :
    s.halt first second third =
      ((((s.order first (.allowTransmit false)).order second (.setBreak false)).withTransmitter
        s.engine.transmitter.stop).order third (.cancelAlarm .transmit)).withRunning false := by
  rw [halt, output]

end Directions

end Scene

/-- Entries of bytes that the interface takes, newest first: each is written behind a look
at the status that finds room for it, and a look that finds none ends them. -/
inductive Hands : List UInt8 → Journal → Prop where
  | nil : Hands [] []
  | full {status : Line.Status} (looked : Micros) (noRoom : status.txReady = false) :
      Hands [] [⟨looked, .sampled status⟩]
  | write {bytes : List UInt8} {entries : Journal} {status : Line.Status}
      (rest : Hands bytes entries) (byte : UInt8) (looked written : Micros)
      (room : status.txReady = true) :
      Hands (byte :: bytes)
        (entries ++ [⟨written, .order (.write byte)⟩, ⟨looked, .sampled status⟩])

namespace Hands

variable {bytes : List UInt8} {entries : Journal}

theorem written (h : Hands bytes entries) : entries.written = bytes := by
  induction h with
  | nil | full => rfl
  | write rest byte looked written room ih =>
      rw [Journal.written_append, ih]
      rfl

theorem only (h : Hands bytes entries) : ∀ entry ∈ entries,
    (∃ status, entry.event = .sampled status) ∨ ∃ byte, entry.event = .order (.write byte) := by
  induction h with
  | nil => exact nofun
  | full looked => simp
  | write rest byte looked written room ih =>
      intro entry mem
      rcases List.mem_append.mp mem with later | here
      · exact ih entry later
      · simp only [List.mem_cons, List.not_mem_nil, or_false] at here
        rcases here with rfl | rfl
        · exact .inr ⟨byte, rfl⟩
        · exact .inl ⟨_, rfl⟩

end Hands

/-- The last entry is a look at the interface that finds no room. -/
def Journal.FindsFull (entries : Journal) : Prop :=
  ∃ looked status earlier,
    entries = ⟨looked, .sampled status⟩ :: earlier ∧ status.txReady = false

namespace Transmitter

/-- What an alarm at `now` makes of a transmitter, the entries that it leaves and
when the next alarm is due. -/
inductive Advances (now : Micros) (t : Transmitter) :
    Journal → Transmitter → Option Micros → Prop where
  /-- The frame before was the last. -/
  | rest (phase : t.state = .idle ∨ t.state = .interPacket) (last : t.stopping = true) :
      Advances now t [] { t with state := .idle } none
  /-- A break begins the next frame. -/
  | lineBreak {next : Transmitter} (time : Micros)
      (phase : t.state = .idle ∨ t.state = .interPacket) (more : t.stopping = false)
      (begun : t.beginFrame now = .ok next) :
      Advances now t [⟨time, .order (.setBreak true)⟩] next (some (now + next.timing.breakTime))
  /-- The break ends. -/
  | mark (time : Micros) (phase : t.state = .lineBreak) :
      Advances now t [⟨time, .order (.setBreak false)⟩] { t with state := .markAfterBreak }
        (some (now + t.timing.markTime))
  /-- The interface takes the whole frame at once. -/
  | whole {entries : Journal} (phase : t.state = .markAfterBreak) (hands : Hands t.wire entries) :
      Advances now t entries { t with sent := t.wire.length, state := .interPacket }
        (some (t.frameStart + t.timing.effective))
  /-- The interface takes a part of the frame. -/
  | part {entries : Journal} {count : Nat} (time : Micros) (phase : t.state = .markAfterBreak)
      (short : count < t.wire.length) (hands : Hands (t.wire.take count) entries)
      (full : entries.FindsFull) :
      Advances now t (⟨time, .order (.allowTransmit true)⟩ :: entries)
        { t with sent := count, state := .data } (some (t.frameStart + t.timing.effective))
  /-- Bytes of the frame still wait for room. -/
  | overrun {wait : Micros} (phase : t.state = .data) (later : t.catchUpTime = .ok wait) :
      Advances now t [] t.overrun (some (now + wait))

/-- What room in the interface makes of a transmitter, and the entries it leaves. -/
inductive Continues (t : Transmitter) : Journal → Transmitter → Prop where
  /-- The interface takes all that is left of the frame. -/
  | whole {entries : Journal} (time : Micros) (phase : t.state = .data)
      (hands : Hands (t.wire.drop t.sent) entries) :
      Continues t (⟨time, .order (.allowTransmit false)⟩ :: entries)
        { t with sent := t.wire.length, state := .interPacket }
  /-- The interface takes a part of what is left. -/
  | part {entries : Journal} {count : Nat} (phase : t.state = .data)
      (short : t.sent + count < t.wire.length)
      (hands : Hands ((t.wire.drop t.sent).take count) entries) :
      Continues t entries { t with sent := t.sent + count }

end Transmitter

/-- What part of a link a step is of. -/
inductive Step.Kind where
  /-- Interrupts, and what is read on the way. -/
  | interrupt
  /-- The queueing of a frame. -/
  | queue
  /-- What takes frames out of the stores. -/
  | read
  /-- What else the foreground does beside a running sequencer. -/
  | adjust
  /-- What starts, stops or turns a link. -/
  | control
  /-- What the foreground orders of the line itself. -/
  | direct
  deriving DecidableEq, Repr

open Step.Kind in
inductive Step {d r : Nat} : Step.Kind → Scene d r → Scene d r → Prop where
  | readClock {s : Scene d r} (time : Micros) : Step interrupt s (s.note time .clockRead)
  | sample {s : Scene d r} (time : Micros) (status : Line.Status) :
      Step interrupt s (s.note time (.sampled status))
  /-- The receiver was handed a signal. -/
  | hear {s : Scene d r} {signal : Signal} {time : Micros} {receiver : Receiver}
      {frame : Option Frame} (receiving : s.engine.receiving = true)
      (heard : s.engine.receiver.hear signal time = .ok (receiver, frame)) :
      Step interrupt s
        (((s.note time (.heard signal)).withReceiver receiver).publish time frame)
  /-- A timeout of the receiver was served; its alarm is disarmed. -/
  | timeOut {s : Scene d r} {time : Micros} {receiver : Receiver} {frame : Option Frame}
      (later : Micros) (served : s.engine.receiver.onTimeout time = .ok (receiver, frame)) :
      Step interrupt s
        ((((s.note time .receiveAlarm).withReceiver receiver).publish time frame).watch later none)
  /-- The receive alarm was brought in line. -/
  | sync {s : Scene d r} (time : Micros) : Step interrupt s (s.sync time)
  /-- The frame on the wire went on. -/
  | resume {s : Scene d r} {entries : Journal} {t : Transmitter}
      (continues : s.engine.transmitter.Continues entries t) :
      Step interrupt s ((s.withTransmitter t).extend entries)
  /-- The transmit alarm was served while sending. -/
  | pace {s : Scene d r} {now : Micros} {entries : Journal} {t : Transmitter}
      {next : Option Micros} (later : Micros) (sending : s.engine.sending = true)
      (advances : s.engine.transmitter.Advances now entries t next) :
      Step interrupt s
        ((((s.note now (.transmitAlarm s.engine.transmitter.state)).withTransmitter t).extend
          entries).order later (alarmOrder .transmit next))
  /-- The transmit alarm was served while not sending. -/
  | paceIdle {s : Scene d r} (time : Micros) (idle : s.engine.sending = false) :
      Step interrupt s (s.order time (.cancelAlarm .transmit))
  | queue {s : Scene d r} {frame : List UInt8} {t : Transmitter} (time : Micros)
      (queued : s.engine.transmitter.queue frame = .ok t) :
      Step Step.Kind.queue s ((s.withTransmitter t).note time (.queued frame))
  /-- A timing was set. -/
  | configure {s : Scene d r} {config : Config} {t : Transmitter}
      (configured : s.engine.transmitter.configure config = .ok t) :
      Step adjust s (s.withTransmitter t)
  | takeDmx {s : Scene d r} {frame : DmxFrame} {store : Frame.Store DmxFrame d}
      (popped : s.dmxStore.pop? = some (frame, store)) : Step read s { s with dmxStore := store }
  | takeRdm {s : Scene d r} {frame : RdmFrame} {store : Frame.Store RdmFrame r}
      (popped : s.rdmStore.pop? = some (frame, store)) : Step read s { s with rdmStore := store }
  /-- The stores were emptied. -/
  | flush {s : Scene d r} :
      Step read s { s with dmxStore := s.dmxStore.clear, rdmStore := s.rdmStore.clear }
  /-- A station claimed the link. -/
  | claim {s : Scene d r} : Step control s { s with engine := { s.engine with attached := true } }
  /-- A station left the link. -/
  | release {s : Scene d r} (stopped : s.engine.running = false) :
      Step control s { s with engine := { s.engine with attached := false } }
  /-- The direction pin did not take a level. -/
  | refuse {s : Scene d r} (time : Micros) (high : Bool) (stopped : s.engine.running = false)
      (released : s.journal.breakAsserted = false) :
      Step control s (s.note time (.pin high false))
  /-- The direction pin took the level of a direction, and the link the direction. -/
  | turn {s : Scene d r} (driven time : Micros) (direction : Direction)
      (stopped : s.engine.running = false) (released : s.journal.breakAsserted = false) :
      Step control s (s.turn driven time direction)
  /-- The frame on the wire is to be the last. -/
  | requestStop {s : Scene d r} (output : s.engine.direction = .output) :
      Step control s (s.withTransmitter s.engine.transmitter.requestStop)
  /-- The sequencer was started. -/
  | start {s : Scene d r} (first second : Micros) (attached : s.engine.attached = true)
      (stopped : s.engine.running = false) (released : s.journal.breakAsserted = false)
      (driven : s.journal.pinLevel?.isSome) : Step control s (s.start first second)
  /-- The sequencer was stopped. -/
  | halt {s : Scene d r} (first second third : Micros) : Step control s (s.halt first second third)
  | setBreak {s : Scene d r} (time : Micros) (asserted : Bool)
      (stopped : s.engine.running = false) (output : s.engine.direction = .output) :
      Step direct s (s.order time (.setBreak asserted))
  | write {s : Scene d r} (time : Micros) (byte : UInt8) (stopped : s.engine.running = false)
      (output : s.engine.direction = .output) : Step direct s (s.order time (.write byte))

/-- The kinds of steps that leave the sequencers running or stopped as they are. -/
def Step.Kind.IsCalm (kind : Step.Kind) : Prop :=
  kind = .interrupt ∨ kind = .queue ∨ kind = .read ∨ kind = .adjust

def Step.Kind.IsFrameless (kind : Step.Kind) : Prop := kind ≠ .queue ∧ kind ≠ .read

/-- The kinds of steps that leave the frames and the timing alone: interrupts, control and
what the foreground orders itself. -/
def Step.Kind.IsSteering (kind : Step.Kind) : Prop :=
  kind = .interrupt ∨ kind = .control ∨ kind = .direct

theorem Step.Kind.IsSteering.frameless {kind : Step.Kind} (h : kind.IsSteering) :
    kind.IsFrameless := by
  rcases h with rfl | rfl | rfl <;> exact ⟨nofun, nofun⟩

theorem Step.Kind.frameless_adjust : IsFrameless .adjust := ⟨nofun, nofun⟩

theorem Step.Kind.steering_interrupt : IsSteering .interrupt := .inl rfl

theorem Step.Kind.steering_control : IsSteering .control := .inr (.inl rfl)

/-- The kinds of steps of a line that the foreground has taken: what it orders itself,
and interrupts. -/
def Step.Kind.IsManual (kind : Step.Kind) : Prop := kind = .interrupt ∨ kind = .direct

theorem Step.Kind.IsManual.steering {kind : Step.Kind} (h : kind.IsManual) :
    kind.IsSteering := by
  rcases h with rfl | rfl
  · exact .inl rfl
  · exact .inr (.inr rfl)

def Steps {d r : Nat} (kinds : Step.Kind → Prop) : Scene d r → Scene d r → Prop :=
  Relation.ReflTransGen fun s s' => ∃ kind, kinds kind ∧ Step kind s s'

namespace Steps

variable {d r : Nat} {kinds : Step.Kind → Prop} {kind : Step.Kind} {s m t : Scene d r}

theorem single (step : Step kind s t) (within : kinds kind) : Steps kinds s t :=
  Relation.ReflTransGen.single ⟨kind, within, step⟩

theorem cons (step : Step kind s m) (within : kinds kind) (steps : Steps kinds m t) :
    Steps kinds s t :=
  Relation.ReflTransGen.head ⟨kind, within, step⟩ steps

theorem snoc (steps : Steps kinds s m) (step : Step kind m t) (within : kinds kind) :
    Steps kinds s t :=
  Relation.ReflTransGen.tail steps ⟨kind, within, step⟩

theorem mono {kinds' : Step.Kind → Prop} (steps : Steps kinds s t)
    (wider : ∀ kind, kinds kind → kinds' kind) : Steps kinds' s t :=
  Relation.ReflTransGen.mono (fun _ _ ⟨kind, within, step⟩ => ⟨kind, wider kind within, step⟩) _ _
    steps

end Steps

end Dmx512
