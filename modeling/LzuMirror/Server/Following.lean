import LzuMirror.Server.LogTransfer
import Mathlib.Algebra.Order.Ring.Nat

/-!
# Following the log of a run

`read_log_chunks` of the command line tool against `read_log`. A run has one
log for each of its attempts. A request without an attempt number is for the
attempt that is the last one when the request arrives, while the client goes on
with nothing but the offset of its last chunk. Between two requests, and while
the server makes a request wait, the logs are transferred and retries create
attempts.
-/

namespace LzuMirror

/-- `Failure::not_found`. -/
def Failure.notFound (code : String) : Failure := ⟨404, code, "not found"⟩

/-- A response of `read_log` as the client reads it: the two headers and the body. -/
structure LogResponse where
  nextOffset : Option ℕ
  complete : Bool
  bytes : List UInt8
  deriving DecidableEq, Repr

def LogPage.response (page : LogPage) : LogResponse where
  nextOffset := some page.nextOffset
  complete := page.complete
  bytes := page.data

/-- What `read_log_chunks` emits. -/
structure LogChunk where
  offset : ℕ
  next : ℕ
  complete : Bool
  bytes : List UInt8
  deriving DecidableEq, Repr

/-- One turn of the loop of `read_log_chunks`: the chunk, and whether there is another turn. -/
def readChunk (follow : Bool) (offset : ℕ) (response : LogResponse) :
    Except String (LogChunk × Bool) :=
  match response.nextOffset with
  | none => .error "log response omitted a valid next offset"
  | some next =>
      if next ≠ min (offset + response.bytes.length) (2 ^ 64 - 1) then
        .error "log response offset did not match its chunk length"
      else
        let last := response.complete || !follow && response.bytes.isEmpty
        .ok (⟨offset, next, response.complete, response.bytes⟩, !last)

/-- The attempts of a run in the order of their numbers, with the transfers of their logs. -/
structure RunLogs (ι : Type) where
  attempts : List ℕ
  systems : ℕ → LogTransfer.System ι

namespace RunLogs

variable {ι : Type} [DecidableEq ι]

def initial : RunLogs ι where
  attempts := []
  systems _ := ⟨fun _ => .pure (), .initial⟩

/-- The attempt a request is for. -/
def requested (run : RunLogs ι) (attempt : Option ℕ) : Option ℕ :=
  attempt <|> run.attempts.getLast?

/-- The part of `read_log` before it waits. -/
def resolve (run : RunLogs ι) (attempt : Option ℕ) : Except Failure ℕ :=
  match run.requested attempt with
  | none => .error (.notFound "attempt_not_found")
  | some no => if no ∈ run.attempts then .ok no else .error (.notFound "attempt_not_found")

/-- One log is transferred a step further, or an attempt is created after the last one ended. -/
inductive Move (config : AgentConfig) : RunLogs ι → RunLogs ι → Prop where
  | transfer {run : RunLogs ι} {no : ℕ} {after : LogTransfer.System ι}
      (created : no ∈ run.attempts) (moved : LogTransfer.Move config (run.systems no) after) :
      Move config run { run with systems := Function.update run.systems no after }
  | create {run : RunLogs ι} {no : ℕ} (later : ∀ earlier ∈ run.attempts, earlier < no)
      (ended : ∀ last, run.attempts.getLast? = some last →
        (run.systems last).state.store.attemptEnded = true) :
      Move config run { run with attempts := run.attempts ++ [no] }

def Reachable (config : AgentConfig) (run : RunLogs ι) : Prop :=
  Relation.ReflTransGen (Move config) initial run

end RunLogs

inductive LogReaderPhase where
  | asking
  | awaiting (no : ℕ)
  | stopped

/--
The client while it reads. It does not know which attempt its last chunk is
from; `answered` is there for statements about it.
-/
structure LogReader where
  offset : ℕ
  chunks : List LogChunk
  phase : LogReaderPhase
  answered : Option ℕ

namespace LogReader

def start : LogReader := ⟨0, [], .asking, none⟩

def ask (reader : LogReader) (no : ℕ) : LogReader := { reader with phase := .awaiting no }

def stop (reader : LogReader) : LogReader := { reader with phase := .stopped }

def receive (reader : LogReader) (no : ℕ) (chunk : LogChunk) (more : Bool) : LogReader where
  offset := chunk.next
  chunks := reader.chunks ++ [chunk]
  phase := if more then .asking else .stopped
  answered := some no

/-- Everything that was emitted. -/
def text (reader : LogReader) : List UInt8 := reader.chunks.flatMap (·.bytes)

/-- The final chunk is marked complete. -/
def Complete (reader : LogReader) : Prop :=
  ∃ chunk, reader.chunks.getLast? = some chunk ∧ chunk.complete = true

variable {ι : Type} [DecidableEq ι]

/--
The clients that read the log of a run. A request may be sent when `asks`
allows it; it is answered at any later time, or it fails and the client stops.
-/
inductive Reads (config : AgentConfig) (follow : Bool) (attempt : Option ℕ)
    (asks : RunLogs ι → LogReader → Prop) : RunLogs ι → LogReader → Prop where
  | start {run : RunLogs ι} (reached : run.Reachable config) :
      Reads config follow attempt asks run .start
  | wait {run after : RunLogs ι} {reader : LogReader}
      (reads : Reads config follow attempt asks run reader) (moved : RunLogs.Move config run after) :
      Reads config follow attempt asks after reader
  | ask {run : RunLogs ι} {reader : LogReader} {no : ℕ}
      (reads : Reads config follow attempt asks run reader) (asking : reader.phase = .asking)
      (allowed : asks run reader) (resolved : run.resolve attempt = .ok no) :
      Reads config follow attempt asks run (reader.ask no)
  | receive {run : RunLogs ι} {reader : LogReader} {no : ℕ} {page : LogPage} {chunk : LogChunk}
      {more : Bool} (reads : Reads config follow attempt asks run reader)
      (awaiting : reader.phase = .awaiting no)
      (answered : (run.systems no).state.store.readLog reader.offset (some 65536) = .ok page)
      (read : readChunk follow reader.offset page.response = .ok (chunk, more)) :
      Reads config follow attempt asks run (reader.receive no chunk more)
  | fail {run : RunLogs ι} {reader : LogReader}
      (reads : Reads config follow attempt asks run reader) :
      Reads config follow attempt asks run reader.stop

theorem Reads.waits {config : AgentConfig} {follow : Bool} {attempt : Option ℕ}
    {asks : RunLogs ι → LogReader → Prop} {run after : RunLogs ι} {reader : LogReader}
    (reads : Reads config follow attempt asks run reader)
    (moves : Relation.ReflTransGen (RunLogs.Move config) run after) :
    Reads config follow attempt asks after reader := by
  induction moves with
  | refl => exact reads
  | tail _ moved ih => exact ih.wait moved

/--
A request for a later part of the log is for the attempt that answered the
request before it: no attempt was created since.
-/
def Settled (attempt : Option ℕ) (run : RunLogs ι) (reader : LogReader) : Prop :=
  reader.offset = 0 ∨ run.requested attempt = reader.answered

/-! ## What a reader has -/

theorem readChunk_ok {follow more : Bool} {offset : ℕ} {page : LogPage} {chunk : LogChunk}
    (read : readChunk follow offset page.response = .ok (chunk, more)) :
    chunk = ⟨offset, page.nextOffset, page.complete, page.data⟩ := by
  by_cases mismatch : page.nextOffset ≠ min (offset + page.data.length) (2 ^ 64 - 1)
  · cases (if_pos mismatch).symm.trans read
  · cases (if_neg mismatch).symm.trans read
    rfl

@[simp]
theorem text_receive (reader : LogReader) (no : ℕ) (chunk : LogChunk) (more : Bool) :
    (reader.receive no chunk more).text = reader.text ++ chunk.bytes := by
  simp [receive, text]

@[simp]
theorem complete_receive (reader : LogReader) (no : ℕ) (chunk : LogChunk) (more : Bool) :
    (reader.receive no chunk more).Complete ↔ chunk.complete = true := by
  simp [receive, Complete]

/-- The reader has the log up to its offset. -/
structure Received (log : List UInt8) (ended : Bool) (reader : LogReader) : Prop where
  inside : reader.offset ≤ log.length
  text : reader.text = log.take reader.offset
  last : reader.Complete → ended = true ∧ reader.offset = log.length

section Received

variable {reader : LogReader} {before after : LogTransfer}

/-- The state of its request is nothing a reader has. -/
theorem Received.of_chunks {log : List UInt8} {ended : Bool} {other : LogReader}
    (received : Received log ended reader) (offset : other.offset = reader.offset)
    (chunks : other.chunks = reader.chunks) : Received log ended other where
  inside := offset ▸ received.inside
  text := by
    rw [LogReader.text, chunks, offset]
    exact received.text
  last := by
    rw [Complete, chunks, offset]
    exact received.last

theorem Received.grow (received : Received before.log before.ended reader)
    (grows : before.Grows after) : Received after.log after.ended reader where
  inside := received.inside.trans grows.log.length_le
  text := by
    rcases grows.log with ⟨rest, same⟩
    rw [← same, List.take_append_of_le_length received.inside]
    exact received.text
  last := by
    intro complete
    rcases received.last complete with ⟨ended, reached⟩
    rcases grows.ended ended with ⟨stillEnded, same⟩
    exact ⟨stillEnded, same ▸ reached⟩

/-- The next page of the same log. -/
theorem Received.receive {state : LogTransfer} {page : LogPage} {follow more : Bool} {no : ℕ}
    {chunk : LogChunk} (exact : state.store.Exact state.log state.ended)
    (inside : reader.offset ≤ state.log.length)
    (text : reader.text = state.log.take reader.offset)
    (answered : state.store.readLog reader.offset (some 65536) = .ok page)
    (read : readChunk follow reader.offset page.response = .ok (chunk, more)) :
    Received state.log state.ended (reader.receive no chunk more) := by
  rcases exact.readLog inside answered with ⟨continued, _, stillInside, told⟩
  have isChunk := readChunk_ok read
  subst isChunk
  refine ⟨stillInside, ?_, ?_⟩
  · rw [text_receive, text]
    exact continued
  · rw [complete_receive]
    exact told

end Received

/-- What holds of every reader whose requests are settled. -/
structure Keeps (config : AgentConfig) (run : RunLogs ι) (reader : LogReader) : Prop where
  reached : ∀ no, LogTransfer.Reachable config (run.systems no)
  fresh : reader.answered = none → reader.chunks = [] ∧ reader.offset = 0
  received : ∀ no, reader.answered = some no → no ∈ run.attempts ∧
    Received (run.systems no).state.log (run.systems no).state.ended reader
  asked : ∀ no, reader.phase = .awaiting no →
    no ∈ run.attempts ∧ (reader.offset = 0 ∨ reader.answered = some no)

section Keeps

variable {config : AgentConfig} {run after : RunLogs ι} {reader : LogReader}

/-- At its beginning a reader has nothing, of whatever attempt. -/
theorem Keeps.text_of_zero (keeps : Keeps config run reader) (zero : reader.offset = 0) :
    reader.text = [] := by
  cases answered : reader.answered with
  | none => simp [text, (keeps.fresh answered).1]
  | some no => simpa [zero] using (keeps.received no answered).2.text

theorem Keeps.move (keeps : Keeps config run reader) (moved : RunLogs.Move config run after) :
    Keeps config after reader := by
  cases moved with
  | @transfer no system created moved =>
      have reached : ∀ other, LogTransfer.Reachable config
          (Function.update run.systems no system other) := by
        intro other
        by_cases same : other = no
        · subst same
          rw [Function.update_self]
          exact (keeps.reached other).tail moved
        · simpa [same] using keeps.reached other
      refine ⟨reached, keeps.fresh, ?_, keeps.asked⟩
      intro other answered
      rcases keeps.received other answered with ⟨mem, received⟩
      refine ⟨mem, ?_⟩
      by_cases same : other = no
      · subst same
        have grows := ((keeps.reached other).secure.step moved).2
        simpa using received.grow grows
      · simpa [same] using received
  | create later ended =>
      refine ⟨keeps.reached, keeps.fresh, ?_, ?_⟩
      · intro no answered
        rcases keeps.received no answered with ⟨mem, received⟩
        exact ⟨List.mem_append_left _ mem, received⟩
      · intro no awaiting
        rcases keeps.asked no awaiting with ⟨mem, settled⟩
        exact ⟨List.mem_append_left _ mem, settled⟩

theorem keeps_start (reached : run.Reachable config) : Keeps config run .start := by
  have first : Keeps config (RunLogs.initial : RunLogs ι) .start :=
    ⟨fun _ => .refl, fun _ => ⟨rfl, rfl⟩, by rintro _ ⟨⟩, by rintro _ ⟨⟩⟩
  induction reached with
  | refl => exact first
  | tail _ moved ih => exact ih.move moved

omit [DecidableEq ι] in
theorem resolve_ok {attempt : Option ℕ} {no : ℕ} (resolved : run.resolve attempt = .ok no) :
    run.requested attempt = some no ∧ no ∈ run.attempts := by
  simp only [RunLogs.resolve] at resolved
  split at resolved
  · cases resolved
  next requested =>
    split at resolved
    next mem =>
      cases resolved
      exact ⟨requested, mem⟩
    · cases resolved

theorem Keeps.ask {attempt : Option ℕ} {no : ℕ} (keeps : Keeps config run reader)
    (settled : Settled attempt run reader) (resolved : run.resolve attempt = .ok no) :
    Keeps config run (reader.ask no) := by
  rcases resolve_ok resolved with ⟨requested, mem⟩
  refine ⟨keeps.reached, keeps.fresh, ?_, ?_⟩
  · intro other answered
    rcases keeps.received other answered with ⟨mem, received⟩
    exact ⟨mem, received.of_chunks rfl rfl⟩
  rintro _ ⟨⟩
  refine ⟨mem, ?_⟩
  rcases settled with zero | same
  · exact .inl zero
  · exact .inr (same.symm.trans requested)

theorem Keeps.receive {follow more : Bool} {no : ℕ} {page : LogPage} {chunk : LogChunk}
    (keeps : Keeps config run reader) (awaiting : reader.phase = .awaiting no)
    (answered : (run.systems no).state.store.readLog reader.offset (some 65536) = .ok page)
    (read : readChunk follow reader.offset page.response = .ok (chunk, more)) :
    Keeps config run (reader.receive no chunk more) := by
  rcases keeps.asked no awaiting with ⟨mem, settled⟩
  have exact := (keeps.reached no).secure.valid.store
  refine ⟨keeps.reached, by rintro ⟨⟩, ?_, ?_⟩
  · rintro _ ⟨⟩
    refine ⟨mem, ?_⟩
    rcases settled with zero | same
    · refine Received.receive exact (zero ▸ Nat.zero_le _) ?_ answered read
      simp [keeps.text_of_zero zero, zero]
    · have received := (keeps.received no same).2
      exact Received.receive exact received.inside received.text answered read
  · intro other awaits
    cases more <;> cases awaits

theorem Keeps.stop (keeps : Keeps config run reader) : Keeps config run reader.stop := by
  refine ⟨keeps.reached, keeps.fresh, ?_, by rintro _ ⟨⟩⟩
  intro no answered
  rcases keeps.received no answered with ⟨mem, received⟩
  exact ⟨mem, received.of_chunks rfl rfl⟩

theorem Reads.keeps {follow : Bool} {attempt : Option ℕ}
    (reads : Reads config follow attempt (Settled attempt) run reader) :
    Keeps config run reader := by
  induction reads with
  | start reached => exact keeps_start reached
  | wait _ moved ih => exact ih.move moved
  | ask _ _ settled resolved ih => exact ih.ask settled resolved
  | receive _ awaiting answered read ih => exact ih.receive awaiting answered read
  | fail _ ih => exact ih.stop

end Keeps

namespace Sample

open LogTransfer LogTransfer.Sample

/-- The first attempt has sent one byte of its log, and ended on the server. -/
def cutShort : LogTransfer :=
  let sent := (visit none running { LogTransfer.initial.write running with log := [9] }).getD .initial
  { sent with store := { sent.store with attemptEnded := true } }

/-- The log of the second attempt is complete. -/
def whole : LogTransfer := resumed.getD .initial

variable {run : RunLogs Unit}

def settle (run : RunLogs Unit) (no : ℕ) (state : LogTransfer) : RunLogs Unit :=
  { run with systems := Function.update run.systems no (atRest state) }

def created (run : RunLogs Unit) (no : ℕ) : RunLogs Unit :=
  { run with attempts := run.attempts ++ [no] }

/-- The run while its first attempt is the last one, and after its retry. -/
def once : RunLogs Unit := settle (created .initial 1) 1 cutShort

/-- The client after one chunk of the first attempt, and after one more of the second. -/
def part : LogReader :=
  (start.ask 1).receive 1 ⟨0, 1, false, [9]⟩ true

variable {asks : RunLogs Unit → LogReader → Prop}

end Sample

end LogReader

end LzuMirror
