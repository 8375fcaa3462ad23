import Mathlib.Algebra.Order.BigOperators.Group.List
import Mathlib.Algebra.Order.Ring.Nat
import Mathlib.Data.List.Chain
import Mathlib.Data.List.Infix
import Mathlib.Logic.Function.Basic
import Mathlib.Logic.Relation

/-!
# The capture of an attempt's output

`capture` and the two tasks that run `pump`, with the pipes that the processes of the
attempt write to and the bounded channel between the tasks. The tasks, the processes
and the failures of files and reads interleave at every point where a task awaits.

Nothing of what is written gets lost on the way, nothing gets there twice, and each
stream keeps its order, however the frames of the two streams mix. The capture ends
when every process has closed both streams, and no sooner.
-/

namespace LzuMirror

namespace Capture

inductive Stream where
  | stdout
  | stderr
  deriving DecidableEq, Repr

def ascii (text : String) : List UInt8 := text.toList.map fun char => UInt8.ofNat char.toNat

def Stream.tag : Stream → List UInt8
  | .stdout => ascii "[stdout] "
  | .stderr => ascii "[stderr] "

inductive Frame where
  | stdout (bytes : List UInt8)
  | stderr (bytes : List UInt8)
  deriving DecidableEq, Repr

namespace Frame

/-- The frame of a `pump`, whose argument `stdout` says which constructor to take. -/
def of : Stream → List UInt8 → Frame
  | .stdout, bytes => .stdout bytes
  | .stderr, bytes => .stderr bytes

def stream : Frame → Stream
  | .stdout _ => .stdout
  | .stderr _ => .stderr

def bytes : Frame → List UInt8
  | .stdout bytes => bytes
  | .stderr bytes => bytes

/-- What `capture` writes for the frame. -/
def text (frame : Frame) : List UInt8 := frame.stream.tag ++ frame.bytes

@[simp]
theorem stream_of (stream : Stream) (bytes : List UInt8) : (of stream bytes).stream = stream := by
  cases stream <;> rfl

@[simp]
theorem bytes_of (stream : Stream) (bytes : List UInt8) : (of stream bytes).bytes = bytes := by
  cases stream <;> rfl

theorem length_text (frame : Frame) : frame.text.length = frame.bytes.length + 9 := by
  cases frame <;> simp [text, stream, Stream.tag, bytes, ascii]

end Frame

/-- What of the stream is in the frames, in their order. -/
def payload (stream : Stream) : List Frame → List UInt8
  | [] => []
  | frame :: rest =>
      (if frame.stream = stream then frame.bytes else []) ++ payload stream rest

/-- What the file holds after the frames have been written to it. -/
def rendered (frames : List Frame) : List UInt8 := frames.flatMap Frame.text

@[simp]
theorem payload_append (stream : Stream) (first second : List Frame) :
    payload stream (first ++ second) = payload stream first ++ payload stream second := by
  induction first with
  | nil => simp [payload]
  | cons frame rest ih => simp [payload, ih]

@[simp]
theorem rendered_append (first second : List Frame) :
    rendered (first ++ second) = rendered first ++ rendered second := by
  simp [rendered]

/-- Where a `pump` is. -/
inductive Pump where
  | reading
  | sending (bytes : List UInt8)
  | ended
  deriving DecidableEq, Repr

/-- What has been read and not been sent. -/
def Pump.bytes : Pump → List UInt8
  | .reading => []
  | .sending bytes => bytes
  | .ended => []

/-- A pipe of the child, with the `pump` that reads from it. -/
structure Pipe where
  -- everything that was ever written to the pipe
  written : List UInt8
  pending : List UInt8
  -- no process holds an end to write to
  closed : Bool
  pump : Pump
  -- the pump ended before the end of the stream
  broken : Bool
  deriving DecidableEq, Repr

/-- A stream without a pipe has no pump. -/
def Pipe.new (piped : Bool) : Pipe :=
  ⟨[], [], !piped, if piped then .reading else .ended, false⟩

/-- Where `capture` is. -/
inductive Writer where
  | opening
  | receiving
  -- `write_all` and `sync_data`, with what the file lacks of the frame
  | writing (rest : List UInt8)
  | syncing
  | ended (ok : Bool)
  deriving DecidableEq, Repr

/-- What the file lacks of the frames that were received. -/
def Writer.rest : Writer → List UInt8
  | .writing rest => rest
  | .opening | .receiving | .syncing | .ended _ => []

end Capture

/-- A capture, with the output of the child so far and the frames that were received. -/
structure Capture where
  pipes : Capture.Stream → Capture.Pipe
  channel : List Capture.Frame
  received : List Capture.Frame
  writer : Capture.Writer
  file : Option (List UInt8)

namespace Capture

/-- The child was spawned; a file of the name may be there from before. -/
def spawned (piped : Stream → Bool) (earlier : Option (List UInt8)) : Capture where
  pipes stream := .new (piped stream)
  channel := []
  received := []
  writer := .opening
  file := earlier

def capacity : ℕ := 16

def bufferSize : ℕ := 8192

def setPipe (capture : Capture) (stream : Stream) (pipe : Pipe) : Capture :=
  { capture with pipes := Function.update capture.pipes stream pipe }

/-- What the processes of the attempt do. A pipe that nobody reads any more takes nothing. -/
inductive Outputs : Capture → Capture → Prop where
  | write {before : Capture} (stream : Stream) (bytes : List UInt8)
      (opened : (before.pipes stream).closed = false)
      (read : (before.pipes stream).pump ≠ .ended) :
      Outputs before (before.setPipe stream
        { before.pipes stream with
          written := (before.pipes stream).written ++ bytes
          pending := (before.pipes stream).pending ++ bytes })
  | close {before : Capture} (stream : Stream) (opened : (before.pipes stream).closed = false) :
      Outputs before (before.setPipe stream { before.pipes stream with closed := true })

/-- One step of a `pump` without a failure. -/
inductive Pumps : Capture → Capture → Prop where
  | read {before : Capture} (stream : Stream) (bytes rest : List UInt8)
      (reading : (before.pipes stream).pump = .reading)
      (pending : (before.pipes stream).pending = bytes ++ rest)
      (nonempty : bytes ≠ []) (fits : bytes.length ≤ bufferSize) :
      Pumps before (before.setPipe stream
        { before.pipes stream with pending := rest, pump := .sending bytes })
  | endOfFile {before : Capture} (stream : Stream)
      (reading : (before.pipes stream).pump = .reading)
      (drained : (before.pipes stream).pending = [])
      (closed : (before.pipes stream).closed = true) :
      Pumps before (before.setPipe stream { before.pipes stream with pump := .ended })
  | send {before : Capture} (stream : Stream) (bytes : List UInt8)
      (sending : (before.pipes stream).pump = .sending bytes)
      (room : before.channel.length < capacity)
      (received : ∀ ok, before.writer ≠ .ended ok) :
      Pumps before
        { before.setPipe stream { before.pipes stream with pump := .reading } with
          channel := before.channel ++ [.of stream bytes] }
  /-- The receiver is gone. -/
  | reject {before : Capture} (stream : Stream) (bytes : List UInt8) (ok : Bool)
      (sending : (before.pipes stream).pump = .sending bytes)
      (gone : before.writer = .ended ok) :
      Pumps before (before.setPipe stream
        { before.pipes stream with pump := .ended, broken := true })

/-- One step of `capture` without a failure. A write appends some of the bytes. -/
inductive Writes : Capture → Capture → Prop where
  | create {before : Capture} (opening : before.writer = .opening) :
      Writes before { before with writer := .receiving, file := some [] }
  | receive {before : Capture} (frame : Frame) (rest : List Frame)
      (receiving : before.writer = .receiving) (first : before.channel = frame :: rest) :
      Writes before { before with
        writer := .writing frame.text
        channel := rest
        received := before.received ++ [frame] }
  | append {before : Capture} (bytes rest text : List UInt8)
      (writing : before.writer = .writing (bytes ++ rest)) (nonempty : bytes ≠ [])
      (file : before.file = some text) :
      Writes before { before with
        writer := .writing rest
        file := some (text ++ bytes) }
  | syncData {before : Capture} (written : before.writer = .writing []) :
      Writes before { before with writer := .receiving }
  /-- The channel is empty and nobody can send any more. -/
  | finish {before : Capture} (receiving : before.writer = .receiving)
      (empty : before.channel = [])
      (ended : ∀ stream, (before.pipes stream).pump = .ended) :
      Writes before { before with writer := .syncing }
  | syncAll {before : Capture} (syncing : before.writer = .syncing) :
      Writes before { before with writer := .ended true }

inductive Fails : Capture → Capture → Prop where
  /-- `read` returns an error. -/
  | pump {before : Capture} (stream : Stream)
      (reading : (before.pipes stream).pump = .reading) :
      Fails before (before.setPipe stream
        { before.pipes stream with pump := .ended, broken := true })
  /-- A `?` of `capture` returns the error. -/
  | capture {before : Capture} (running : ∀ ok, before.writer ≠ .ended ok) :
      Fails before { before with writer := .ended false }

/-- A step of one of the tasks. -/
def Works (before after : Capture) : Prop :=
  Pumps before after ∨ Writes before after ∨ Fails before after

def Step (before after : Capture) : Prop := Outputs before after ∨ Works before after

/-- The captures that can be reached. -/
def Reachable (earlier : Option (List UInt8)) (capture : Capture) : Prop :=
  ∃ piped, Relation.ReflTransGen Step (spawned piped earlier) capture

/-! ## What is kept at every instant -/

@[simp]
theorem setPipe_self (capture : Capture) (stream : Stream) (pipe : Pipe) :
    (capture.setPipe stream pipe).pipes stream = pipe := by
  simp [setPipe]

theorem setPipe_other {stream other : Stream} (apart : other ≠ stream) (capture : Capture)
    (pipe : Pipe) : (capture.setPipe stream pipe).pipes other = capture.pipes other := by
  simp [setPipe, apart]

/-- Every byte that was written to the stream has gone one way; only a broken pump loses any. -/
def Conserves (capture : Capture) (stream : Stream) : Prop :=
  ∃ lost, payload stream capture.received ++ payload stream capture.channel ++
      (capture.pipes stream).pump.bytes ++ lost = (capture.pipes stream).written ∧
    ((capture.pipes stream).broken = false → lost = (capture.pipes stream).pending)

/-- A pump ends at the end of its stream, unless it is broken. -/
structure Pipe.EndsLast (pipe : Pipe) : Prop where
  broken : pipe.broken = true → pipe.pump = .ended
  ended : pipe.pump = .ended → pipe.broken = false → pipe.pending = [] ∧ pipe.closed = true

/-- What the file holds, by where `capture` is. -/
def Keeps (earlier : Option (List UInt8)) (capture : Capture) : Prop :=
  match capture.writer with
  | .opening => capture.received = [] ∧ capture.file = earlier
  | .receiving => capture.file = some (rendered capture.received)
  | .writing rest => ∃ text, capture.file = some text ∧ text ++ rest = rendered capture.received
  | .syncing | .ended true =>
      capture.file = some (rendered capture.received) ∧ capture.channel = [] ∧
        ∀ stream, (capture.pipes stream).pump = .ended
  | .ended false => capture.received = [] ∧ capture.file = earlier ∨
      ∃ text, capture.file = some text ∧ text <+: rendered capture.received

/-- What the tasks hold is bounded. -/
structure Bounded (capture : Capture) : Prop where
  channel : capture.channel.length ≤ capacity
  frames : ∀ frame ∈ capture.channel, frame.bytes.length ≤ bufferSize
  pumps : ∀ stream, (capture.pipes stream).pump.bytes.length ≤ bufferSize
  rest : capture.writer.rest.length ≤ bufferSize + 9

structure Sound (earlier : Option (List UInt8)) (capture : Capture) : Prop where
  conserves : ∀ stream, capture.Conserves stream
  endsLast : ∀ stream, (capture.pipes stream).EndsLast
  keeps : capture.Keeps earlier
  bounded : capture.Bounded

variable {earlier : Option (List UInt8)} {before after capture : Capture}

theorem sound_spawned (piped : Stream → Bool) : (spawned piped earlier).Sound earlier where
  conserves stream := by
    refine ⟨[], ?_, by simp [spawned, Pipe.new]⟩
    simp only [spawned, Pipe.new]
    split <;> simp [payload, Pump.bytes]
  endsLast stream := ⟨by simp [spawned, Pipe.new], by simp [spawned, Pipe.new]⟩
  keeps := ⟨rfl, rfl⟩
  bounded :=
    { channel := Nat.zero_le _
      frames := by simp [spawned]
      pumps := fun stream => by simp only [spawned, Pipe.new]; split <;> simp [Pump.bytes]
      rest := Nat.zero_le _ }

theorem Conserves.other {stream other : Stream} {pipe : Pipe} {frames : List Frame}
    (conserves : before.Conserves other) (apart : other ≠ stream)
    (sent : payload other frames = []) :
    Conserves { before.setPipe stream pipe with channel := before.channel ++ frames } other := by
  rcases conserves with ⟨lost, every, intact⟩
  refine ⟨lost, ?_, ?_⟩
  · simpa [setPipe, apart, sent] using every
  · simpa [setPipe, apart] using intact

theorem Conserves.otherPipe {stream other : Stream} {pipe : Pipe}
    (conserves : before.Conserves other) (apart : other ≠ stream) :
    (before.setPipe stream pipe).Conserves other := by
  rcases conserves with ⟨lost, every, intact⟩
  refine ⟨lost, ?_, ?_⟩
  · simpa [setPipe, apart] using every
  · simpa [setPipe, apart] using intact

theorem Conserves.outputs {other : Stream} (conserves : before.Conserves other)
    (step : Outputs before after) : after.Conserves other := by
  cases step with
  | write stream bytes opened read =>
      rcases eq_or_ne other stream with rfl | apart
      · rcases conserves with ⟨lost, every, intact⟩
        refine ⟨lost ++ bytes, ?_, ?_⟩
        · simp only [setPipe, Function.update_self, ← every, List.append_assoc]
        · intro whole
          simp only [setPipe_self] at whole ⊢
          rw [intact whole]
      · exact conserves.otherPipe apart
  | close stream opened =>
      rcases eq_or_ne other stream with rfl | apart
      · rcases conserves with ⟨lost, every, intact⟩
        exact ⟨lost, by simpa [setPipe] using every, by simpa [setPipe] using intact⟩
      · exact conserves.otherPipe apart

theorem Conserves.pumps {other : Stream} (conserves : before.Conserves other)
    (last : (before.pipes other).EndsLast) (step : Pumps before after) : after.Conserves other := by
  cases step with
  | read stream bytes rest reading pending nonempty fits =>
      rcases eq_or_ne other stream with rfl | apart
      · rcases conserves with ⟨lost, every, intact⟩
        have whole : (before.pipes other).broken = false := by
          apply Bool.eq_false_iff.mpr
          intro broken
          cases reading.symm.trans (last.broken broken)
        rw [intact whole, pending, reading] at every
        exact ⟨rest, by simpa [setPipe, Pump.bytes] using every, by simp [setPipe]⟩
      · exact conserves.otherPipe apart
  | endOfFile stream reading drained closed =>
      rcases eq_or_ne other stream with rfl | apart
      · rcases conserves with ⟨lost, every, intact⟩
        rw [reading] at every
        exact ⟨lost, by simpa [setPipe, Pump.bytes] using every, by simpa [setPipe] using intact⟩
      · exact conserves.otherPipe apart
  | send stream bytes sending room received =>
      rcases eq_or_ne other stream with rfl | apart
      · rcases conserves with ⟨lost, every, intact⟩
        rw [sending] at every
        refine ⟨lost, ?_, by simpa [setPipe] using intact⟩
        simpa [setPipe, Pump.bytes, payload] using every
      · apply conserves.other apart
        simp [payload, apart.symm]
  | reject stream bytes ok sending gone =>
      rcases eq_or_ne other stream with rfl | apart
      · rcases conserves with ⟨lost, every, intact⟩
        rw [sending] at every
        refine ⟨bytes ++ lost, ?_, by simp [setPipe]⟩
        simpa [setPipe, Pump.bytes] using every
      · exact conserves.otherPipe apart

theorem Conserves.writes {stream : Stream} (conserves : before.Conserves stream)
    (step : Writes before after) : after.Conserves stream := by
  rcases conserves with ⟨lost, every, intact⟩
  cases step with
  | receive frame rest receiving first =>
      refine ⟨lost, ?_, intact⟩
      rw [first] at every
      simpa [payload] using every
  | create opening => exact ⟨lost, every, intact⟩
  | append bytes rest text writing nonempty file => exact ⟨lost, every, intact⟩
  | syncData written => exact ⟨lost, every, intact⟩
  | finish receiving empty ended => exact ⟨lost, every, intact⟩
  | syncAll syncing => exact ⟨lost, every, intact⟩

theorem Conserves.fails {other : Stream} (conserves : before.Conserves other)
    (step : Fails before after) : after.Conserves other := by
  cases step with
  | pump stream reading =>
      rcases eq_or_ne other stream with rfl | apart
      · rcases conserves with ⟨lost, every, intact⟩
        rw [reading] at every
        exact ⟨lost, by simpa [setPipe, Pump.bytes] using every, by simp [setPipe]⟩
      · exact conserves.otherPipe apart
  | capture running => exact conserves

theorem Pipe.EndsLast.outputs {other : Stream} (last : (before.pipes other).EndsLast)
    (step : Outputs before after) : (after.pipes other).EndsLast := by
  cases step with
  | write stream bytes opened read =>
      rcases eq_or_ne other stream with rfl | apart
      · refine ⟨by simpa using last.broken, ?_⟩
        intro ended
        exact absurd (by simpa using ended) read
      · simpa [setPipe_other apart] using last
  | close stream opened =>
      rcases eq_or_ne other stream with rfl | apart
      · refine ⟨by simpa using last.broken, ?_⟩
        intro ended whole
        simp only [setPipe_self] at ended whole ⊢
        exact ⟨(last.ended ended whole).1, trivial⟩
      · simpa [setPipe_other apart] using last

theorem Pipe.EndsLast.pumps {other : Stream} (last : (before.pipes other).EndsLast)
    (step : Pumps before after) : (after.pipes other).EndsLast := by
  have running (stream : Stream) (going : (before.pipes stream).pump ≠ .ended)
      (same : other = stream) : (before.pipes stream).broken = false := by
    subst same
    apply Bool.eq_false_iff.mpr
    intro broken
    exact going (last.broken broken)
  cases step with
  | read stream bytes rest reading pending nonempty fits =>
      rcases eq_or_ne other stream with rfl | apart
      · exact ⟨by simp [running other (by simp [reading]) rfl], by simp⟩
      · simpa [setPipe_other apart] using last
  | endOfFile stream reading drained closed =>
      rcases eq_or_ne other stream with rfl | apart
      · exact ⟨by simp, by simp [drained, closed]⟩
      · simpa [setPipe_other apart] using last
  | send stream bytes sending room received =>
      rcases eq_or_ne other stream with rfl | apart
      · exact ⟨by simp [setPipe, running other (by simp [sending]) rfl], by simp [setPipe]⟩
      · simpa [setPipe, apart] using last
  | reject stream bytes ok sending gone =>
      rcases eq_or_ne other stream with rfl | apart
      · exact ⟨by simp, by simp⟩
      · simpa [setPipe_other apart] using last

theorem Pipe.EndsLast.fails {other : Stream} (last : (before.pipes other).EndsLast)
    (step : Fails before after) : (after.pipes other).EndsLast := by
  cases step with
  | pump stream reading =>
      rcases eq_or_ne other stream with rfl | apart
      · exact ⟨by simp, by simp⟩
      · simpa [setPipe_other apart] using last
  | capture running => exact last

/-- The file, what was received and where `capture` is are the same. -/
theorem Keeps.same (keeps : before.Keeps earlier) (writer : after.writer = before.writer)
    (received : after.received = before.received) (file : after.file = before.file)
    (quiet : before.channel = [] → (∀ stream, (before.pipes stream).pump = .ended) →
      after.channel = [] ∧ ∀ stream, (after.pipes stream).pump = .ended) :
    after.Keeps earlier := by
  unfold Keeps at keeps ⊢
  rw [writer, received, file]
  split at keeps
  next => exact keeps
  next => exact keeps
  next => exact keeps
  next => exact ⟨keeps.1, quiet keeps.2.1 keeps.2.2⟩
  next => exact ⟨keeps.1, quiet keeps.2.1 keeps.2.2⟩
  next => exact keeps

/-- The processes of the attempt leave the tasks where they are. -/
theorem Outputs.frame (step : Outputs before after) :
    after.writer = before.writer ∧ after.received = before.received ∧
      after.file = before.file ∧ after.channel = before.channel := by
  cases step <;> exact ⟨rfl, rfl, rfl, rfl⟩

theorem Outputs.pump (step : Outputs before after) (other : Stream) :
    (after.pipes other).pump = (before.pipes other).pump := by
  cases step with
  | write stream bytes opened read =>
      rcases eq_or_ne other stream with rfl | apart
      · simp
      · simp [setPipe_other apart]
  | close stream opened =>
      rcases eq_or_ne other stream with rfl | apart
      · simp
      · simp [setPipe_other apart]

theorem Keeps.outputs (keeps : before.Keeps earlier) (step : Outputs before after) :
    after.Keeps earlier := by
  rcases step.frame with ⟨writer, received, file, channel⟩
  apply keeps.same writer received file
  intro empty ended
  exact ⟨channel.trans empty, fun stream => (step.pump stream).trans (ended stream)⟩

/-- A pump that makes a step has not ended. -/
theorem Pumps.running (step : Pumps before after) :
    ∃ stream, (before.pipes stream).pump ≠ .ended := by
  cases step with
  | read stream bytes rest reading pending nonempty fits => exact ⟨stream, by simp [reading]⟩
  | endOfFile stream reading drained closed => exact ⟨stream, by simp [reading]⟩
  | send stream bytes sending room received => exact ⟨stream, by simp [sending]⟩
  | reject stream bytes ok sending gone => exact ⟨stream, by simp [sending]⟩

theorem Pumps.frame (step : Pumps before after) :
    after.writer = before.writer ∧ after.received = before.received ∧ after.file = before.file := by
  cases step <;> exact ⟨rfl, rfl, rfl⟩

theorem Keeps.pumps (keeps : before.Keeps earlier) (step : Pumps before after) :
    after.Keeps earlier := by
  rcases step.frame with ⟨writer, received, file⟩
  apply keeps.same writer received file
  intro empty ended
  rcases step.running with ⟨stream, running⟩
  exact absurd (ended stream) running

theorem Keeps.writes (keeps : before.Keeps earlier) (step : Writes before after) :
    after.Keeps earlier := by
  cases step with
  | create opening =>
      simp only [Keeps, opening] at keeps
      simp [Keeps, keeps.1, rendered]
  | receive frame rest receiving first =>
      simp only [Keeps, receiving] at keeps
      refine ⟨rendered before.received, keeps, ?_⟩
      simp [rendered]
  | append bytes rest text writing nonempty file =>
      simp only [Keeps, writing] at keeps
      rcases keeps with ⟨present, held, complete⟩
      cases file.symm.trans held
      exact ⟨text ++ bytes, rfl, by simpa using complete⟩
  | syncData written =>
      simp only [Keeps, written] at keeps
      rcases keeps with ⟨text, held, complete⟩
      simpa [Keeps, ← complete] using held
  | finish receiving empty ended =>
      simp only [Keeps, receiving] at keeps
      exact ⟨keeps, empty, ended⟩
  | syncAll syncing =>
      simpa only [Keeps, syncing] using keeps

theorem Keeps.fails (keeps : before.Keeps earlier) (step : Fails before after) :
    after.Keeps earlier := by
  cases step with
  | pump stream reading =>
      refine Keeps.same keeps rfl rfl rfl fun empty ended => ?_
      cases reading.symm.trans (ended stream)
  | capture running =>
      simp only [Keeps] at keeps ⊢
      split at keeps
      next => exact .inl keeps
      next => exact .inr ⟨_, keeps, List.prefix_rfl⟩
      next =>
        rcases keeps with ⟨text, held, complete⟩
        exact .inr ⟨text, held, complete ▸ List.prefix_append _ _⟩
      next => exact .inr ⟨_, keeps.1, List.prefix_rfl⟩
      next ended => exact absurd ended (running true)
      next ended => exact absurd ended (running false)

theorem Bounded.outputs (bounded : before.Bounded) (step : Outputs before after) :
    after.Bounded := by
  rcases step.frame with ⟨writer, received, file, channel⟩
  refine ⟨channel ▸ bounded.channel, channel ▸ bounded.frames, fun stream => ?_,
    writer ▸ bounded.rest⟩
  rw [step.pump stream]
  exact bounded.pumps stream

theorem Bounded.setPipe {stream : Stream} {pipe : Pipe} (bounded : before.Bounded)
    (fits : pipe.pump.bytes.length ≤ bufferSize) : (before.setPipe stream pipe).Bounded := by
  refine ⟨bounded.channel, bounded.frames, fun other => ?_, bounded.rest⟩
  rcases eq_or_ne other stream with rfl | apart
  · simpa using fits
  · simpa [setPipe_other apart] using bounded.pumps other

theorem Bounded.pump (bounded : before.Bounded) (step : Pumps before after) : after.Bounded := by
  cases step with
  | read stream bytes rest reading pending nonempty fits => exact bounded.setPipe fits
  | endOfFile stream reading drained closed => exact bounded.setPipe (Nat.zero_le _)
  | send stream bytes sending room received =>
      have small := bounded.pumps stream
      rw [sending] at small
      have moved : (before.setPipe stream { before.pipes stream with pump := .reading }).Bounded :=
        bounded.setPipe (Nat.zero_le _)
      refine ⟨by simpa using Nat.succ_le_of_lt room, ?_, moved.pumps, bounded.rest⟩
      intro frame sent
      rcases List.mem_append.mp sent with earlier | last
      · exact bounded.frames frame earlier
      · rw [List.mem_singleton.mp last, Frame.bytes_of]
        exact small
  | reject stream bytes ok sending gone => exact bounded.setPipe (Nat.zero_le _)

theorem Bounded.writes (bounded : before.Bounded) (step : Writes before after) :
    after.Bounded := by
  cases step with
  | create opening => exact { bounded with rest := Nat.zero_le _ }
  | receive frame rest receiving first =>
      have fits := bounded.frames frame (by simp [first])
      have length := bounded.channel
      rw [first, List.length_cons] at length
      refine ⟨by dsimp only; omega, ?_, bounded.pumps, ?_⟩
      · intro other sent
        exact bounded.frames other (by simp [first, sent])
      · simpa [Writer.rest, Frame.length_text] using fits
  | append bytes rest text writing nonempty file =>
      have fits := bounded.rest
      simp only [writing, Writer.rest, List.length_append] at fits
      exact { bounded with rest := by simp only [Writer.rest]; omega }
  | syncData written => exact { bounded with rest := Nat.zero_le _ }
  | finish receiving empty ended => exact { bounded with rest := Nat.zero_le _ }
  | syncAll syncing => exact { bounded with rest := Nat.zero_le _ }

theorem Bounded.fails (bounded : before.Bounded) (step : Fails before after) : after.Bounded := by
  cases step with
  | pump stream reading => exact bounded.setPipe (Nat.zero_le _)
  | capture running => exact { bounded with rest := Nat.zero_le _ }

theorem Sound.step (sound : before.Sound earlier) (step : Step before after) :
    after.Sound earlier := by
  rcases step with outputs | pumps | writes | fails
  · exact ⟨fun stream => (sound.conserves stream).outputs outputs,
      fun stream => (sound.endsLast stream).outputs outputs, sound.keeps.outputs outputs,
      sound.bounded.outputs outputs⟩
  · exact ⟨fun stream => (sound.conserves stream).pumps (sound.endsLast stream) pumps,
      fun stream => (sound.endsLast stream).pumps pumps, sound.keeps.pumps pumps,
      sound.bounded.pump pumps⟩
  · refine ⟨fun stream => (sound.conserves stream).writes writes, fun stream => ?_,
      sound.keeps.writes writes, sound.bounded.writes writes⟩
    cases writes <;> exact sound.endsLast stream
  · exact ⟨fun stream => (sound.conserves stream).fails fails,
      fun stream => (sound.endsLast stream).fails fails, sound.keeps.fails fails,
      sound.bounded.fails fails⟩

theorem Reachable.step (reachable : before.Reachable earlier) (step : Step before after) :
    after.Reachable earlier := by
  rcases reachable with ⟨piped, ran⟩
  exact ⟨piped, ran.tail step⟩

theorem Reachable.sound (reachable : capture.Reachable earlier) : capture.Sound earlier := by
  rcases reachable with ⟨piped, ran⟩
  induction ran with
  | refl => exact sound_spawned piped
  | tail _ step ih => exact ih.step step

/-! ## Once it has ended -/

theorem Step.ended {ok : Bool} (ended : before.writer = .ended ok) (step : Step before after) :
    after.writer = .ended ok ∧ after.file = before.file := by
  rcases step with outputs | pumps | writes | fails
  · exact ⟨outputs.frame.1.trans ended, outputs.frame.2.2.1⟩
  · exact ⟨pumps.frame.1.trans ended, pumps.frame.2.2⟩
  · cases writes <;> simp_all
  · cases fails with
    | pump stream reading => exact ⟨ended, rfl⟩
    | capture running => exact absurd ended (running ok)

theorem ended_run {ok : Bool} (ran : Relation.ReflTransGen Step before after)
    (ended : before.writer = .ended ok) : after.file = before.file := by
  suffices kept : after.writer = .ended ok ∧ after.file = before.file from kept.2
  induction ran with
  | refl => exact ⟨ended, rfl⟩
  | tail _ step ih =>
      rcases step.ended ih.1 with ⟨still, same⟩
      exact ⟨still, same.trans ih.2⟩

/-- The bytes that the tasks hold. -/
def held (capture : Capture) : ℕ :=
  (capture.channel.map fun frame => frame.bytes.length).sum +
    (capture.pipes .stdout).pump.bytes.length + (capture.pipes .stderr).pump.bytes.length +
    capture.writer.rest.length

theorem Bounded.held (bounded : capture.Bounded) :
    capture.held ≤ (capacity + 3) * bufferSize + 9 := by
  have channel : (capture.channel.map fun frame => frame.bytes.length).sum ≤
      capture.channel.length * bufferSize := by
    have each := List.sum_le_card_nsmul (capture.channel.map fun frame => frame.bytes.length)
      bufferSize (by simpa using bounded.frames)
    simpa using each
  have length := Nat.mul_le_mul_right bufferSize bounded.channel
  have stdout := bounded.pumps .stdout
  have stderr := bounded.pumps .stderr
  have rest := bounded.rest
  simp only [Capture.held, Nat.add_mul]
  omega

theorem Conserves.ordered {stream : Stream} (conserves : capture.Conserves stream) :
    payload stream capture.received <+: (capture.pipes stream).written := by
  rcases conserves with ⟨lost, every, intact⟩
  rw [← every, List.append_assoc, List.append_assoc]
  exact List.prefix_append _ _

/-- What the file holds of the frames, once it was created. -/
theorem Sound.text (sound : capture.Sound earlier) :
    capture.received = [] ∧ capture.file = earlier ∨
      ∃ text, capture.file = some text ∧ text <+: rendered capture.received := by
  have keeps := sound.keeps
  simp only [Keeps] at keeps
  split at keeps
  next => exact .inl keeps
  next => exact .inr ⟨_, keeps, List.prefix_rfl⟩
  next =>
    rcases keeps with ⟨text, held, complete⟩
    exact .inr ⟨text, held, complete ▸ List.prefix_append _ _⟩
  next => exact .inr ⟨_, keeps.1, List.prefix_rfl⟩
  next => exact .inr ⟨_, keeps.1, List.prefix_rfl⟩
  next => exact keeps

theorem Sound.complete (sound : capture.Sound earlier) (ended : capture.writer = .ended true) :
    capture.file = some (rendered capture.received) ∧
      ∀ stream, (capture.pipes stream).broken = true ∨ (capture.pipes stream).closed = true ∧
        payload stream capture.received = (capture.pipes stream).written := by
  have keeps := sound.keeps
  simp only [Keeps, ended] at keeps
  rcases keeps with ⟨file, empty, pumps⟩
  refine ⟨file, fun stream => ?_⟩
  cases whole : (capture.pipes stream).broken with
  | true => exact .inl rfl
  | false =>
      right
      have last := (sound.endsLast stream).ended (pumps stream) whole
      rcases sound.conserves stream with ⟨lost, every, intact⟩
      refine ⟨last.2, ?_⟩
      rw [intact whole, last.1, empty, pumps stream] at every
      simpa [payload, Pump.bytes] using every

end Capture

open Capture

/--
At every instant the file holds the beginning of what was received, and that, stream
by stream, the beginning of what was written. A capture that ends without an error has
all of it, up to a failed `read`. The tasks never hold more than they have room for,
and nothing touches the file after the end.
-/
theorem output_is_captured {earlier : Option (List UInt8)} {capture : Capture}
    (reachable : capture.Reachable earlier) :
    (capture.received = [] ∧ capture.file = earlier ∨
      ∃ text, capture.file = some text ∧ text <+: rendered capture.received) ∧
    (∀ stream, payload stream capture.received <+: (capture.pipes stream).written) ∧
    (capture.writer = .ended true →
      capture.file = some (rendered capture.received) ∧
        ∀ stream, (capture.pipes stream).broken = true ∨ (capture.pipes stream).closed = true ∧
          payload stream capture.received = (capture.pipes stream).written) ∧
    capture.held ≤ (capacity + 3) * bufferSize + 9 ∧
    ∀ ok later, capture.writer = .ended ok → Relation.ReflTransGen Step capture later →
      later.file = capture.file := by
  have sound := reachable.sound
  refine ⟨sound.text, fun stream => (sound.conserves stream).ordered, sound.complete,
    sound.bounded.held, ?_⟩
  intro ok later ended ran
  exact ended_run ran ended

namespace Capture

/-- The child writes to one stream and closes both, and the capture ends. -/
theorem reachable_ended : ∃ closed ended : Capture,
    closed.Reachable none ∧ (∀ stream, (closed.pipes stream).closed = true) ∧
      ended.Reachable none ∧ ended.writer = .ended true ∧
        (ended.pipes .stdout).written = ascii "hi" ∧ (ended.pipes .stdout).broken = false := by
  have start : Reachable none (spawned (fun _ => true) none) := ⟨_, .refl⟩
  have written := start.step (.inl (.write .stdout (ascii "hi") rfl (by decide)))
  have read := written.step
    (.inr (.inl (.read .stdout (ascii "hi") [] rfl rfl (by decide) (by decide))))
  have sent := read.step (.inr (.inl (.send .stdout _ rfl (by decide) (by decide))))
  have created := sent.step (.inr (.inr (.inl (.create rfl))))
  have received := created.step (.inr (.inr (.inl (.receive _ [] rfl rfl))))
  have appended := received.step
    (.inr (.inr (.inl (.append (ascii "[stdout] hi") [] [] rfl (by decide) rfl))))
  have closed := (appended.step (.inl (.close .stdout rfl))).step (.inl (.close .stderr rfl))
  have synced := closed.step (.inr (.inr (.inl (.syncData rfl))))
  have drained := (synced.step (.inr (.inl (.endOfFile .stdout rfl rfl rfl)))).step
    (.inr (.inl (.endOfFile .stderr rfl rfl rfl)))
  have finished := drained.step
    (.inr (.inr (.inl (.finish rfl rfl fun stream => by cases stream <;> rfl))))
  have ended := finished.step (.inr (.inr (.inl (.syncAll rfl))))
  exact ⟨_, _, closed, fun stream => by cases stream <;> rfl, ended, rfl, rfl, rfl⟩

end Capture

theorem output_is_captured_ended : ∃ capture : Capture, capture.Reachable none ∧
    capture.file = some (rendered capture.received) ∧
      payload .stdout capture.received = ascii "hi" := by
  rcases reachable_ended with ⟨_, capture, _, _, reachable, ended, written, whole⟩
  rcases (output_is_captured reachable).2.2.1 ended with ⟨file, streams⟩
  rcases streams .stdout with broken | ⟨_, every⟩
  · cases broken.symm.trans whole
  · exact ⟨capture, reachable, file, every.trans written⟩

namespace Capture

variable {earlier : Option (List UInt8)} {before after capture : Capture}

/-! ## The end of a capture -/

/-- What a byte costs at most on its way from the pipe to the file. -/
def byteCost : ℕ := 16

def Pump.work : Pump → ℕ
  | .reading => 1
  | .sending bytes => bytes.length + 13
  | .ended => 0

def Pipe.work (pipe : Pipe) : ℕ := byteCost * pipe.pending.length + pipe.pump.work

def Writer.work : Writer → ℕ
  | .opening => 3
  | .receiving => 2
  | .writing rest => rest.length + 3
  | .syncing => 1
  | .ended _ => 0

/-- The steps that the tasks have still to make. -/
def work (capture : Capture) : ℕ :=
  (capture.pipes .stdout).work + (capture.pipes .stderr).work +
    (capture.channel.map fun frame => frame.bytes.length + 11).sum + capture.writer.work

theorem work_setPipe_lt {stream : Stream} {pipe : Pipe}
    (less : pipe.work < (before.pipes stream).work) :
    (before.setPipe stream pipe).work < before.work := by
  cases stream <;> simp [work, setPipe] <;> omega

theorem work_send {stream : Stream} {pipe : Pipe} {frame : Frame}
    (less : pipe.work + frame.bytes.length + 11 < (before.pipes stream).work) :
    Capture.work { before.setPipe stream pipe with channel := before.channel ++ [frame] } <
      before.work := by
  cases stream <;> simp [work, setPipe] <;> omega

theorem Pumps.work_lt (step : Pumps before after) : after.work < before.work := by
  cases step with
  | read stream bytes rest reading pending nonempty fits =>
      have some := List.length_pos_iff.mpr nonempty
      apply work_setPipe_lt
      simp [Pipe.work, pending, reading, Pump.work, byteCost]
      omega
  | endOfFile stream reading drained closed =>
      apply work_setPipe_lt
      simp [Pipe.work, reading, Pump.work]
  | send stream bytes sending room received =>
      apply work_send
      simp [Pipe.work, sending, Pump.work]
      omega
  | reject stream bytes ok sending gone =>
      apply work_setPipe_lt
      simp [Pipe.work, sending, Pump.work]

theorem Writes.work_lt (step : Writes before after) : after.work < before.work := by
  cases step with
  | create opening => simp [work, opening, Writer.work]
  | receive frame rest receiving first =>
      simp [work, receiving, first, Writer.work, Frame.length_text]
      omega
  | append bytes rest text writing nonempty file =>
      have some := List.length_pos_iff.mpr nonempty
      simp [work, writing, Writer.work]
      omega
  | syncData written => simp [work, written, Writer.work]
  | finish receiving empty ended => simp [work, receiving, Writer.work]
  | syncAll syncing => simp [work, syncing, Writer.work]

theorem Fails.work_lt (step : Fails before after) : after.work < before.work := by
  cases step with
  | pump stream reading =>
      apply work_setPipe_lt
      simp [Pipe.work, reading, Pump.work]
  | capture running =>
      have going : 0 < before.writer.work := by
        cases place : before.writer with
        | ended ok => exact absurd place (running ok)
        | opening => simp [Writer.work]
        | receiving => simp [Writer.work]
        | writing rest => simp [Writer.work]
        | syncing => simp [Writer.work]
      have ended : Writer.work (.ended false) = 0 := rfl
      simp only [work, ended]
      omega

theorem Works.work_lt (step : Works before after) : after.work < before.work := by
  rcases step with pumps | writes | fails
  · exact pumps.work_lt
  · exact writes.work_lt
  · exact fails.work_lt

theorem pump_advances {stream : Stream} (going : (capture.pipes stream).pump ≠ .ended)
    (running : ∀ ok, capture.writer ≠ .ended ok) (room : capture.channel.length < capacity) :
    (∃ later, Pumps capture later ∨ Writes capture later) ∨
      ∃ stream, (capture.pipes stream).closed = false ∧
        (capture.pipes stream).pump = .reading ∧ (capture.pipes stream).pending = [] := by
  cases place : (capture.pipes stream).pump with
  | ended => exact absurd place going
  | sending bytes => exact .inl ⟨_, .inl (.send stream bytes place room running)⟩
  | reading =>
      rcases eq_or_ne (capture.pipes stream).pending [] with drained | some
      · cases closed : (capture.pipes stream).closed with
        | true => exact .inl ⟨_, .inl (.endOfFile stream place drained closed)⟩
        | false => exact .inr ⟨stream, closed, place, drained⟩
      · left
        have split := List.take_append_drop bufferSize (capture.pipes stream).pending
        refine ⟨_, .inl (.read stream _ _ place split.symm ?_ (List.length_take_le _ _))⟩
        simpa [bufferSize] using some

/-- Some step is possible without a failure, unless every pump waits for output or has ended. -/
theorem Sound.advances (sound : capture.Sound earlier)
    (running : ∀ ok, capture.writer ≠ .ended ok) :
    (∃ later, Pumps capture later ∨ Writes capture later) ∨
      ∃ stream, (capture.pipes stream).closed = false ∧
        (capture.pipes stream).pump = .reading ∧ (capture.pipes stream).pending = [] := by
  cases place : capture.writer with
  | opening => exact .inl ⟨_, .inr (.create place)⟩
  | syncing => exact .inl ⟨_, .inr (.syncAll place)⟩
  | ended ok => exact absurd place (running ok)
  | writing rest =>
      left
      have keeps := sound.keeps
      simp only [Keeps, place] at keeps
      rcases keeps with ⟨text, file, complete⟩
      rcases eq_or_ne rest [] with rfl | nonempty
      · exact ⟨_, .inr (.syncData place)⟩
      · exact ⟨_, .inr (.append rest [] text (by simpa using place) nonempty file)⟩
  | receiving =>
      cases queued : capture.channel with
      | cons frame rest => exact .inl ⟨_, .inr (.receive frame rest place queued)⟩
      | nil =>
          by_cases ended : ∀ stream, (capture.pipes stream).pump = .ended
          · exact .inl ⟨_, .inr (.finish place queued ended)⟩
          · simp only [not_forall] at ended
            rcases ended with ⟨stream, going⟩
            exact pump_advances going running (by simp [queued, capacity])

theorem closed_setPipe {stream : Stream} {pipe : Pipe}
    (closed : ∀ stream, (before.pipes stream).closed = true) (same : pipe.closed = true)
    (other : Stream) : ((before.setPipe stream pipe).pipes other).closed = true := by
  rcases eq_or_ne other stream with rfl | apart
  · simpa using same
  · simpa [setPipe_other apart] using closed other

/-- Nothing is written any more to streams that are closed. -/
theorem Step.works (closed : ∀ stream, (before.pipes stream).closed = true)
    (step : Step before after) :
    Works before after ∧ ∀ stream, (after.pipes stream).closed = true := by
  rcases step with outputs | works
  · cases outputs with
    | write stream bytes opened read => simp [closed stream] at opened
    | close stream opened => simp [closed stream] at opened
  · refine ⟨works, ?_⟩
    rcases works with pumps | writes | fails
    · cases pumps <;> exact closed_setPipe closed (closed _)
    · cases writes <;> exact closed
    · cases fails with
      | pump stream reading => exact closed_setPipe closed (closed stream)
      | capture running => exact closed

theorem length_le_work (closed : ∀ stream, (before.pipes stream).closed = true)
    {run : List Capture} (chain : (before :: run).IsChain Step) : run.length ≤ before.work := by
  induction run generalizing before with
  | nil => exact Nat.zero_le _
  | cons next rest ih =>
      rcases List.isChain_cons_cons.mp chain with ⟨step, further⟩
      rcases step.works closed with ⟨works, still⟩
      have less := works.work_lt
      have later := ih still further
      simp only [List.length_cons]
      omega

theorem closed_run (closed : ∀ stream, (before.pipes stream).closed = true)
    (ran : Relation.ReflTransGen Step before after) :
    ∀ stream, (after.pipes stream).closed = true := by
  induction ran with
  | refl => exact closed
  | tail _ step ih => exact (step.works ih).2

end Capture

open Capture

/--
A capture does not wait forever: as long as it has not ended, a step is possible without
a failure, or a pump waits for output. Once every process has closed both streams, the
capture comes to its end after at most `work` steps, whatever their order and whatever
fails.
-/
theorem capture_ends_with_its_streams {earlier : Option (List UInt8)} {capture : Capture}
    (reachable : capture.Reachable earlier) :
    ((∀ ok, capture.writer ≠ .ended ok) →
      (∃ next, Pumps capture next ∨ Writes capture next) ∨
        ∃ stream, (capture.pipes stream).closed = false ∧
          (capture.pipes stream).pump = .reading ∧ (capture.pipes stream).pending = []) ∧
    ((∀ stream, (capture.pipes stream).closed = true) →
      (∀ run : List Capture, (capture :: run).IsChain Step → run.length ≤ capture.work) ∧
        ∀ later, Relation.ReflTransGen Step capture later →
          (∃ ok, later.writer = .ended ok) ∨ ∃ next, Pumps later next ∨ Writes later next) := by
  refine ⟨reachable.sound.advances, fun closed => ⟨fun run => length_le_work closed, ?_⟩⟩
  intro later ran
  have still := closed_run closed ran
  rcases reachable with ⟨piped, before⟩
  have sound : later.Sound earlier := Reachable.sound ⟨piped, before.trans ran⟩
  by_cases running : ∀ ok, later.writer ≠ .ended ok
  · rcases sound.advances running with next | ⟨stream, opened, reading, drained⟩
    · exact .inr next
    · cases opened.symm.trans (still stream)
  · simp only [not_forall, not_not] at running
    exact .inl running

theorem capture_ends_with_its_streams_closed : ∃ capture : Capture, capture.Reachable none ∧
    ∀ run : List Capture, (capture :: run).IsChain Step → run.length ≤ capture.work := by
  rcases reachable_ended with ⟨capture, _, reachable, closed, _⟩
  exact ⟨capture, reachable, ((capture_ends_with_its_streams reachable).2 closed).1⟩

end LzuMirror
