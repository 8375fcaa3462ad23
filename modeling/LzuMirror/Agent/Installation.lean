import LzuMirror.Core.Canonical
import LzuMirror.Core.Compilation
import LzuMirror.Lib.Directory
import LzuMirror.Lib.Interleaving

/-!
# The installation id of an agent

`load_or_create_installation_id` over the spool directory. The process lock lets one
call run at a time. Every operation may fail, a call may be cut off anywhere, and the
power may fail.

The id that a call returns is the id of all later calls, as long as no power is lost
while the file that is seen is not durable. A call that creates the file makes it
durable before it returns; a call that finds one does not.
-/

namespace LzuMirror

/-- The file `agent-id`, and the temporary files that become it. -/
inductive IdFile where
  | agentId
  | temporary (ulid : String)
  deriving DecidableEq, Repr

/-- What `read_to_string` returns without a text. -/
inductive ReadError where
  | notFound
  | other (error : String)
  deriving DecidableEq, Repr

/-- The operations of a call; `returned` is its return. -/
inductive IdOp where
  | readToString
  | newUlid
  | createNew (path : IdFile)
  | writeAll (path : IdFile) (text : String)
  | syncFile (path : IdFile)
  | rename (source destination : IdFile)
  | removeFile (path : IdFile)
  | syncDirectory
  | returned (id : String)

abbrev IdOp.Reply : IdOp → Type
  | .readToString => Except ReadError String
  | .newUlid => String
  | .returned _ => Unit
  | .createNew _ | .writeAll _ _ | .syncFile _ | .rename _ _ | .removeFile _ | .syncDirectory =>
      Except String Unit

abbrev IdM := ExceptT String (Program IdOp IdOp.Reply)

namespace Installation

/-- `str::trim`. -/
def trim (text : String) : String :=
  String.ofList ((text.toList.dropWhile isWhitespace).reverse.dropWhile isWhitespace).reverse

section

-- a ULID that is parsed and displayed again
variable (redisplay : String → Option String)

/-- The id in the text of the file. -/
def parse (text : String) : Except String String :=
  match redisplay (trim text) with
  | none => .error "durable Agent installation ID is invalid"
  | some shown =>
      if shown ≠ trim text then .error "durable Agent installation ID is not canonical"
      else .ok (trim text)

/-- The closure `publication`. -/
def publish (id : String) (temporary : IdFile) : IdM Unit := do
  ExceptT.mk (Program.request (IdOp.createNew temporary))
  ExceptT.mk (Program.request (IdOp.writeAll temporary id))
  ExceptT.mk (Program.request (IdOp.writeAll temporary "\n"))
  ExceptT.mk (Program.request (IdOp.syncFile temporary))
  ExceptT.mk (Program.request (IdOp.rename temporary .agentId))

/-- The part of `load_or_create_installation_id` without a file. -/
def create : IdM String := do
  let id ← ExceptT.lift (Program.request IdOp.newUlid)
  let ulid ← ExceptT.lift (Program.request IdOp.newUlid)
  let publication ← ExceptT.lift (publish id (.temporary ulid)).run
  match publication with
  | .error error =>
      let _ ← ExceptT.lift (Program.request (IdOp.removeFile (.temporary ulid)))
      throw error
  | .ok _ =>
      ExceptT.mk (Program.request IdOp.syncDirectory)
      return id

/-- `load_or_create_installation_id`. -/
def loadOrCreate : IdM String := do
  match ← ExceptT.lift (Program.request IdOp.readToString) with
  | .ok text => ExceptT.mk (pure (parse redisplay text))
  | .error .notFound => create
  | .error (.other error) => throw error

/-- A call and its return. -/
def call : Program IdOp IdOp.Reply Unit := do
  match ← (loadOrCreate redisplay).run with
  | .ok id => Program.request (IdOp.returned id)
  | .error _ => pure ()

end

end Installation

/-- The spool directory, the ULIDs that were drawn, and the ids that were returned. -/
structure IdState where
  directory : Directory IdFile String
  drawn : List String
  returned : List String
  -- the directory was synced by a call that has made the file
  synced : Bool

namespace IdState

/-- The directory before the first call, with the file of an earlier release or without one. -/
def init (earlier : Option String) : IdState where
  directory := ⟨fun path => match path with
    | .agentId => earlier.map fun text => ⟨text, true⟩
    | .temporary _ => none, []⟩
  drawn := []
  returned := []
  synced := false

/-- The text that is seen in a file. -/
def text (state : IdState) (path : IdFile) : Option String :=
  (state.directory.entries path).map (·.content)

/-- A change of the directory that may fail, with or without effect. -/
def Attempts (before : IdState) (possible : Prop) (effect : Directory IdFile String)
    (reply : Except String Unit) (after : IdState) : Prop :=
  possible ∧ after = { before with directory := effect } ∨
    (∃ error, reply = .error error) ∧ after = before

/-- What an operation may do. -/
def Step (redisplay : String → Option String) : Program.Semantics IdOp IdOp.Reply IdState
  | before, .readToString, reply, after => after = before ∧
      (reply = .error .notFound → before.text .agentId = none) ∧
        ∀ text, reply = .ok text → before.text .agentId = some text
  | before, .newUlid, ulid, after =>
      ulid ∉ before.drawn ∧ ulidText ulid = true ∧ redisplay ulid = some ulid ∧
        after = { before with drawn := ulid :: before.drawn }
  | before, .createNew path, reply, after =>
      before.Attempts (before.text path = none) (before.directory.store path "") reply after
  -- a failed write leaves any part of the text
  | before, .writeAll path text, reply, after =>
      ∃ old piece, before.text path = some old ∧ (reply = .ok () → piece = text) ∧
        before.Attempts True (before.directory.store path (old ++ piece)) reply after
  | before, .syncFile path, reply, after =>
      before.Attempts (before.text path ≠ none) (before.directory.syncFile path) reply after
  | before, .rename source destination, reply, after =>
      before.Attempts (before.text source ≠ none) (before.directory.rename source destination)
        reply after
  | before, .removeFile path, reply, after =>
      before.Attempts True (before.directory.remove path) reply after
  | before, .syncDirectory, reply, after =>
      ∃ settled, before.Attempts True before.directory.sync reply settled ∧
        after = { settled with synced := before.synced || reply.isOk }
  | before, .returned id, _, after => after = { before with returned := id :: before.returned }

/-- The file that is seen cannot be lost. -/
def Settled (state : IdState) : Prop :=
  state.text .agentId = none ∨ ∃ text, state.directory.Durable .agentId text

end IdState

/-- The agent's calls and the directory. -/
abbrev IdPool := Pool Unit IdOp IdOp.Reply IdState

/-- The runs in which no power is lost while the file may be lost with it. -/
inductive IdPool.Runs (redisplay : String → Option String) (earlier : Option String) :
    IdPool → Prop where
  | start : Runs redisplay earlier ⟨fun _ => .pure (), .init earlier⟩
  | move {pool after : IdPool} (ran : Runs redisplay earlier pool)
      (moved : Pool.Move (fun _ => IdState.Step redisplay)
        (fun _ program => program = Installation.call redisplay) pool after) :
      Runs redisplay earlier after
  | stop {pool : IdPool} (ran : Runs redisplay earlier pool) :
      Runs redisplay earlier ⟨fun _ => .pure (), pool.state⟩
  | powerLoss {pool : IdPool} {directory : Directory IdFile String}
      (ran : Runs redisplay earlier pool) (settled : pool.state.Settled)
      (lost : pool.state.directory.Lost directory) :
      Runs redisplay earlier ⟨fun _ => .pure (), { pool.state with directory }⟩

namespace IdState

section Sound

variable (redisplay : String → Option String)

/-- The invariant of the directory. -/
structure Sound (state : IdState) : Prop where
  fresh : ∀ ulid ∉ state.drawn,
    state.directory.Certain (.temporary ulid) fun entry => entry = none
  -- the file appears once, complete, and is never replaced
  single : state.directory.Certain .agentId fun entry =>
    entry = none ∨ entry = state.directory.entries .agentId
  complete : ∀ file, state.directory.entries .agentId = some file → file.synced = true
  returned : ∀ id ∈ state.returned, ∃ text, state.text .agentId = some text ∧
    Installation.parse redisplay text = .ok id
  synced : state.synced = true → ∃ text, state.directory.Durable .agentId text

/-- A call that makes the file: the content of its temporary file. -/
structure Stage (ulid : String) (content : Option (StoredFile String)) (state : IdState) :
    Prop where
  mine : ulid ∈ state.drawn
  absent : state.directory.entries .agentId = none
  held : state.directory.entries (.temporary ulid) = content

end Sound

variable {redisplay : String → Option String} {earlier : Option String}
  {state before after : IdState} {ulid : String} {content : Option (StoredFile String)}

theorem sound_init : (init earlier).Sound redisplay where
  fresh ulid _ := by simp [init, Directory.Certain, Directory.Shows]
  single := by simp [init, Directory.Certain, Directory.Shows]
  complete := by
    intro file present
    simp only [init, Option.map_eq_some_iff] at present
    rcases present with ⟨text, _, rfl⟩
    rfl
  returned := by simp [init]
  synced := by simp [init]

/-- Nothing is returned, and nothing can be lost, before the file is there. -/
theorem Sound.of_absent (sound : state.Sound redisplay)
    (absent : state.directory.entries .agentId = none) :
    state.returned = [] ∧ state.synced = false := by
  constructor
  · apply List.eq_nil_iff_forall_not_mem.mpr
    intro id member
    rcases sound.returned id member with ⟨text, shown, _⟩
    simp [IdState.text, absent] at shown
  · apply Bool.eq_false_iff.mpr
    intro synced
    rcases sound.synced synced with ⟨text, durable⟩
    cases absent.symm.trans durable.entry

/-- A change of a temporary file. -/
theorem Sound.temporary (sound : before.Sound redisplay) {directory : Directory IdFile String}
    (leaves : Directory.Leaves .agentId before.directory directory)
    (fresh : ∀ other ∉ before.drawn,
      directory.Certain (.temporary other) fun entry => entry = none) :
    { before with directory }.Sound redisplay where
  fresh := fresh
  single := by
    rw [leaves.entries]
    exact leaves.certain sound.single
  complete := by
    rw [leaves.entries]
    exact sound.complete
  returned id member := by
    rcases sound.returned id member with ⟨text, shown, parsed⟩
    refine ⟨text, ?_, parsed⟩
    simpa only [IdState.text, leaves.entries] using shown
  synced flagged := by
    rcases sound.synced flagged with ⟨text, durable⟩
    exact ⟨text, leaves.certain durable⟩

theorem fresh_elsewhere (sound : before.Sound redisplay) (mine : ulid ∈ before.drawn)
    {directory : Directory IdFile String}
    (leaves : ∀ other, other ≠ ulid →
      Directory.Leaves (.temporary other) before.directory directory) :
    ∀ other ∉ before.drawn, directory.Certain (.temporary other) fun entry => entry = none := by
  intro other undrawn
  have apart : other ≠ ulid := by
    rintro rfl
    exact undrawn mine
  exact (leaves other apart).certain (sound.fresh other undrawn)

theorem temporary_ne {other : String} (apart : other ≠ ulid) :
    IdFile.temporary other ≠ .temporary ulid := by
  rintro ⟨⟩
  exact apart rfl

/-- The file appears. -/
theorem Stage.renames {text : String} (stage : Stage ulid (some ⟨text, true⟩) before)
    (sound : before.Sound redisplay) :
    { before with directory := before.directory.rename (.temporary ulid) .agentId }.Sound
      redisplay where
  fresh := fresh_elsewhere sound stage.mine fun other apart =>
    Directory.leaves_rename (temporary_ne apart) (by simp)
  single := by
    have never : before.directory.Certain .agentId fun entry => entry = none := by
      refine sound.single.imp fun entry shown => ?_
      rcases shown with none | same
      · exact none
      · exact same.trans stage.absent
    exact Directory.Certain.change (never.imp fun entry nothing => .inl nothing) (.inr rfl)
  complete := by
    have appears : (before.directory.rename (.temporary ulid) .agentId).entries .agentId =
        some ⟨text, true⟩ := (Directory.rename_entries (by simp)).trans stage.held
    intro file present
    cases appears.symm.trans present
    rfl
  returned id member := by
    rw [(sound.of_absent stage.absent).1] at member
    cases member
  synced flagged := by
    cases (sound.of_absent stage.absent).2.symm.trans flagged

theorem Sound.syncs (sound : before.Sound redisplay)
    (present : before.directory.entries .agentId ≠ none) (flag : Bool) :
    { before with directory := before.directory.sync, synced := flag }.Sound redisplay where
  fresh ulid undrawn := (sound.fresh ulid undrawn).sync
  single := sound.single.sync
  complete := sound.complete
  returned := sound.returned
  synced _ := by
    cases shown : before.directory.entries .agentId with
    | none => exact absurd shown present
    | some file =>
        refine ⟨file.content, Directory.durable_sync.mpr ?_⟩
        rw [shown, ← sound.complete file shown]

/-! ## The call -/

/-- Every step keeps the invariant, and the end satisfies the postcondition. -/
def Holds {α : Type} (redisplay : String → Option String) (program : IdM α)
    (post : Except String α → IdState → Prop) (state : IdState) : Prop :=
  program.run.Safe (Step redisplay) (fun before after => after = before) (fun _ _ => True)
    (Sound redisplay) post state

/-- A postcondition of the operations that succeed. -/
def OnOk {α : Type} (post : α → IdState → Prop) : Except String α → IdState → Prop
  | .ok value, after => post value after
  | .error _, _ => True

theorem holds_bind {α β : Type} {program : IdM α} {next : α → IdM β}
    {middle : α → IdState → Prop} {post : β → IdState → Prop}
    (first : Holds redisplay program (OnOk middle) state)
    (rest : ∀ value after, middle value after → Holds redisplay (next value) (OnOk post) after) :
    Holds redisplay (program >>= next) (OnOk post) state := by
  refine Program.safe_exceptBind.mpr (Program.Safe.imp first ?_)
  rintro (error | value) after held
  · trivial
  · exact rest value after held

theorem Attempts.sound {possible : Prop} {effect : Directory IdFile String}
    {reply : Except String Unit} (attempted : before.Attempts possible effect reply after)
    (sound : before.Sound redisplay)
    (effective : possible → { before with directory := effect }.Sound redisplay) :
    after.Sound redisplay ∧ (reply = .ok () → after = { before with directory := effect }) := by
  rcases attempted with ⟨isPossible, rfl⟩ | ⟨⟨error, rfl⟩, rfl⟩
  · exact ⟨effective isPossible, fun _ => rfl⟩
  · exact ⟨sound, fun impossible => by cases impossible⟩

/-- An operation on the temporary file. -/
theorem Stage.attempts (stage : Stage ulid content before) (sound : before.Sound redisplay)
    {possible : Prop} {effect : Directory IdFile String} {reply : Except String Unit}
    (attempted : before.Attempts possible effect reply after)
    (leaves : ∀ path, path ≠ .temporary ulid → Directory.Leaves path before.directory effect)
    {later : Option (StoredFile String)} (held : effect.entries (.temporary ulid) = later) :
    (True ∧ after.Sound redisplay) ∧ OnOk (fun _ => Stage ulid later) reply after := by
  have unseen := leaves .agentId (by simp)
  have fresh := fresh_elsewhere sound stage.mine fun other apart =>
    leaves (.temporary other) (temporary_ne apart)
  have kept := attempted.sound sound fun _ => sound.temporary unseen fresh
  refine ⟨⟨trivial, kept.1⟩, ?_⟩
  rcases reply with error | _
  · trivial
  · cases kept.2 rfl
    exact ⟨stage.mine, unseen.entries.trans stage.absent, held⟩

theorem holds_createNew (stage : Stage ulid content state) :
    Holds redisplay (ExceptT.mk (Program.request (IdOp.createNew (.temporary ulid))))
      (OnOk fun _ => Stage ulid (some ⟨"", false⟩)) state := by
  rintro before reply after rfl sound attempted
  exact stage.attempts sound attempted (fun path apart => Directory.leaves_store apart)
    Directory.store_entries

theorem holds_writeAll {old : String} {text : String}
    (stage : Stage ulid (some ⟨old, false⟩) state) :
    Holds redisplay (ExceptT.mk (Program.request (IdOp.writeAll (.temporary ulid) text)))
      (OnOk fun _ => Stage ulid (some ⟨old ++ text, false⟩)) state := by
  rintro before reply after rfl sound ⟨read, piece, present, complete, attempted⟩
  have same : read = old := by
    have held : before.text (.temporary ulid) = some old := by simp [IdState.text, stage.held]
    exact Option.some.inj (present.symm.trans held)
  have written := stage.attempts sound attempted (fun path apart => Directory.leaves_store apart)
    Directory.store_entries
  refine ⟨written.1, ?_⟩
  rcases reply with error | _
  · trivial
  · cases same
    cases complete rfl
    exact written.2

theorem holds_syncFile {text : String} (stage : Stage ulid (some ⟨text, false⟩) state) :
    Holds redisplay (ExceptT.mk (Program.request (IdOp.syncFile (.temporary ulid))))
      (OnOk fun _ => Stage ulid (some ⟨text, true⟩)) state := by
  rintro before reply after rfl sound attempted
  exact stage.attempts sound attempted (fun path apart => Directory.leaves_syncFile apart)
    (by simp [stage.held])

theorem holds_rename {text : String} (stage : Stage ulid (some ⟨text, true⟩) state) :
    Holds redisplay (ExceptT.mk (Program.request (IdOp.rename (.temporary ulid) .agentId)))
      (OnOk fun _ after => after.text .agentId = some text) state := by
  rintro before reply after rfl sound attempted
  have kept := attempted.sound sound fun _ => stage.renames sound
  refine ⟨⟨trivial, kept.1⟩, ?_⟩
  rcases reply with error | _
  · trivial
  · cases kept.2 rfl
    have appears : (before.directory.rename (.temporary ulid) .agentId).entries .agentId =
        some ⟨text, true⟩ := (Directory.rename_entries (by simp)).trans stage.held
    have seen : IdState.text { before with
        directory := before.directory.rename (.temporary ulid) .agentId } .agentId = some text := by
      simp [IdState.text, appears]
    exact seen

/-- The closure `publication` writes the whole file before it appears. -/
theorem holds_publish {id : String} (stage : Stage ulid none state) :
    Holds redisplay (Installation.publish id (.temporary ulid))
      (OnOk fun _ after => after.text .agentId = some (id ++ "\n")) state := by
  refine holds_bind (holds_createNew stage) fun _ _ stage => ?_
  refine holds_bind (holds_writeAll stage) fun _ _ stage => ?_
  refine holds_bind (holds_writeAll stage) fun _ _ stage => ?_
  refine holds_bind (holds_syncFile stage) fun _ _ stage => ?_
  refine Program.Safe.imp (holds_rename stage) ?_
  rintro (error | _) after shown
  · trivial
  · simpa [OnOk] using shown

theorem holds_newUlid (absent : state.directory.entries .agentId = none) :
    Holds redisplay (ExceptT.lift (Program.request IdOp.newUlid))
      (OnOk fun ulid after => ulidText ulid = true ∧ redisplay ulid = some ulid ∧
        Stage ulid none after) state := by
  refine Program.safe_exceptLift.mpr ?_
  rintro before ulid after rfl sound ⟨undrawn, spelled, parsed, rfl⟩
  refine ⟨⟨trivial, ?_, sound.single, sound.complete, sound.returned, sound.synced⟩,
    spelled, parsed, by simp, absent, (sound.fresh ulid undrawn).now⟩
  intro other unowned
  apply sound.fresh other
  intro drawn
  exact unowned (List.mem_cons_of_mem _ drawn)

theorem holds_removeFile :
    Holds redisplay (ExceptT.lift (Program.request (IdOp.removeFile (.temporary ulid))))
      (OnOk fun _ _ => True) state := by
  refine Program.safe_exceptLift.mpr ?_
  rintro before reply after rfl sound attempted
  have kept := attempted.sound sound fun _ => sound.temporary
    (Directory.leaves_remove (by simp)) fun other undrawn => ?_
  · exact ⟨⟨trivial, kept.1⟩, trivial⟩
  · refine Directory.Certain.change (sound.fresh other undrawn) ?_
    by_cases same : IdFile.temporary other = .temporary ulid
    · simp [same]
    · simpa [Function.update_of_ne same] using (sound.fresh other undrawn).now

theorem holds_syncDirectory {text : String} (shown : state.text .agentId = some text) :
    Holds redisplay (ExceptT.mk (Program.request IdOp.syncDirectory))
      (OnOk fun _ after => after.text .agentId = some text) state := by
  rintro before reply after rfl sound ⟨settled, attempted, rfl⟩
  have present : before.directory.entries .agentId ≠ none := by
    intro none
    simp [IdState.text, none] at shown
  rcases attempted with ⟨_, rfl⟩ | ⟨⟨error, rfl⟩, rfl⟩
  · have kept := sound.syncs present (before.synced || Except.isOk reply)
    refine ⟨⟨trivial, kept⟩, ?_⟩
    rcases reply with error | _
    · trivial
    · exact shown
  · refine ⟨⟨trivial, sound.fresh, sound.single, sound.complete, sound.returned, ?_⟩, trivial⟩
    intro flagged
    exact sound.synced (by simpa [Except.isOk, Except.toBool] using flagged)

theorem not_isWhitespace_of_ulidText {id : String} (spelled : ulidText id = true) :
    ∀ character ∈ id.toList, isWhitespace character = false := by
  have alphabet : (ulidAlphabet.all fun character => !isWhitespace character) = true := by
    decide
  simp only [ulidText, Bool.and_eq_true, List.all_eq_true, List.contains_iff_mem] at spelled
  intro character member
  simpa using List.all_eq_true.mp alphabet character (spelled.2 character member)

theorem dropWhile_of_plain {characters rest : List Char} (some : characters ≠ [])
    (plain : ∀ character ∈ characters, isWhitespace character = false) :
    (characters ++ rest).dropWhile isWhitespace = characters ++ rest := by
  cases characters with
  | nil => exact absurd rfl some
  | cons first others => simp [plain first]

/-- The id is read back from the line that was written for it. -/
theorem parse_line {id : String} (spelled : ulidText id = true) (parsed : redisplay id = some id) :
    Installation.parse redisplay (id ++ "\n") = .ok id := by
  have plain := not_isWhitespace_of_ulidText spelled
  have some : id.toList ≠ [] := by
    intro none
    simp [ulidText, none] at spelled
  have newline : isWhitespace '\n' = true := by decide
  have trimmed : Installation.trim (id ++ "\n") = id := by
    have backwards := @dropWhile_of_plain id.toList.reverse [] (by simpa using some)
      (by simpa using plain)
    simp only [List.append_nil] at backwards
    simp [Installation.trim, dropWhile_of_plain some plain, newline, backwards]
  simp [Installation.parse, trimmed, parsed]

/-- The id that a call returns is the one that is seen. -/
def Found (redisplay : String → Option String) (id : String) (state : IdState) : Prop :=
  ∃ text, state.text .agentId = some text ∧ Installation.parse redisplay text = .ok id

theorem holds_create (absent : state.directory.entries .agentId = none) :
    Holds redisplay Installation.create (OnOk (Found redisplay)) state := by
  refine holds_bind (holds_newUlid absent) ?_
  rintro id _ ⟨spelled, parsed, stage⟩
  refine holds_bind (holds_newUlid stage.absent) ?_
  rintro ulid drawn ⟨_, _, stage⟩
  have published : Holds redisplay
      (ExceptT.lift (Installation.publish id (.temporary ulid)).run)
      (OnOk (OnOk fun _ after => after.text .agentId = some (id ++ "\n"))) drawn :=
    Program.safe_exceptLift.mpr (holds_publish stage)
  refine holds_bind published ?_
  rintro (error | _) after shown
  · exact holds_bind holds_removeFile fun _ _ _ => trivial
  · refine holds_bind (holds_syncDirectory shown) fun _ after shown => ?_
    exact ⟨_, shown, parse_line spelled parsed⟩

theorem holds_loadOrCreate :
    Holds redisplay (Installation.loadOrCreate redisplay) (OnOk (Found redisplay)) state := by
  have read : Holds redisplay (ExceptT.lift (Program.request IdOp.readToString))
      (OnOk fun reply after => (reply = .error .notFound → after.text .agentId = none) ∧
        ∀ text, reply = .ok text → after.text .agentId = some text) state := by
    refine Program.safe_exceptLift.mpr ?_
    rintro before reply after rfl sound ⟨rfl, absent, found⟩
    exact ⟨⟨trivial, sound⟩, absent, found⟩
  refine holds_bind read ?_
  rintro (error | text) after ⟨absent, found⟩
  · cases error with
    | notFound =>
        have none : after.directory.entries .agentId = none := by
          simpa [IdState.text] using absent rfl
        exact holds_create none
    | other message => trivial
  · suffices read : OnOk (Found redisplay) (Installation.parse redisplay text) after from read
    cases parsed : Installation.parse redisplay text with
    | error message => trivial
    | ok id => exact ⟨text, found text rfl, parsed⟩

theorem holds_call : (Installation.call redisplay).Safe (Step redisplay)
    (fun before after => after = before) (fun _ _ => True) (Sound redisplay) (fun _ _ => True)
    state := by
  refine Program.safe_bind.mpr (Program.Safe.imp holds_loadOrCreate ?_)
  rintro (error | id) after found
  · trivial
  rintro before ⟨⟩ last rfl sound rfl
  refine ⟨⟨trivial, sound.fresh, sound.single, sound.complete, ?_, sound.synced⟩, trivial⟩
  intro other member
  rcases List.mem_cons.mp member with rfl | earlier
  · exact found
  · exact sound.returned other earlier

/-! ## The runs -/

/-- A loss of power that takes nothing that is seen. -/
theorem Sound.lost {directory : Directory IdFile String} (sound : state.Sound redisplay)
    (settled : state.Settled) (lost : state.directory.Lost directory) :
    { state with directory }.Sound redisplay := by
  have fresh : ∀ ulid ∉ state.drawn,
      directory.Certain (.temporary ulid) fun entry => entry = none := by
    intro ulid undrawn
    refine (sound.fresh ulid undrawn).lost lost ?_
    rintro _ _ rfl survives
    cases survives
    rfl
  rcases settled with unseen | ⟨text, durable⟩
  · have absent : state.directory.entries .agentId = none := by
      simpa [IdState.text] using unseen
    have never : directory.Certain .agentId fun entry => entry = none := by
      refine sound.single.lost lost ?_
      rintro entry left (nothing | same) survives
      · cases nothing
        cases survives
        rfl
      · cases same.trans absent
        cases survives
        rfl
    have still := sound.of_absent absent
    refine ⟨fresh, never.imp fun entry nothing => .inl nothing, ?_, ?_, ?_⟩
    · intro file present
      cases never.now.symm.trans present
    · intro id member
      rw [still.1] at member
      cases member
    · intro flagged
      cases still.2.symm.trans flagged
  · have kept := durable.lost lost
    refine ⟨fresh, kept.imp fun entry shown => .inr (shown.trans kept.entry.symm), ?_, ?_,
      fun _ => ⟨text, kept⟩⟩
    · intro file present
      cases kept.entry.symm.trans present
      rfl
    · intro id member
      rcases sound.returned id member with ⟨seen, shown, parsed⟩
      have same : seen = text := by
        simpa [IdState.text, durable.entry] using shown.symm
      exact ⟨text, by simp [IdState.text, kept.entry], same ▸ parsed⟩

end IdState

namespace IdPool

open IdState

variable {redisplay : String → Option String} {earlier : Option String} {pool : IdPool}

theorem Runs.secure (ran : pool.Runs redisplay earlier) :
    pool.Secure (fun _ => Step redisplay) (fun _ before after => after = before)
      (fun _ _ _ => True) (Sound redisplay) fun _ _ => True := by
  induction ran with
  | start => exact ⟨sound_init, fun _ => trivial⟩
  | move _ moved secure =>
      refine secure.move (fun _ _ => rfl) ?_ (fun _ _ _ _ _ => trivial) ?_ ?_ moved
      · rintro _ first second third rfl rfl
        rfl
      · intro actor task before after apart
        exact absurd rfl apart
      · rintro _ _ state rfl _ _
        exact holds_call
  | stop _ secure => exact ⟨secure.valid, fun _ => trivial⟩
  | powerLoss _ settled lost secure =>
      exact ⟨secure.valid.lost settled lost, fun _ => trivial⟩

end IdPool

open IdState in
/--
All calls that return an id return the same one, and it is the one that can be read;
once a call has made the file and synced the directory, it is there for ever.
-/
theorem installation_id_is_stable {redisplay : String → Option String} {earlier : Option String}
    {pool : IdPool} (ran : pool.Runs redisplay earlier) :
    (∀ id ∈ pool.state.returned, ∀ other ∈ pool.state.returned, id = other) ∧
      (∀ id ∈ pool.state.returned, Found redisplay id pool.state) ∧
      (pool.state.synced = true → ∃ text, pool.state.directory.Durable .agentId text) := by
  have sound := ran.secure.valid
  refine ⟨?_, sound.returned, sound.synced⟩
  intro id member other too
  rcases sound.returned id member with ⟨text, shown, parsed⟩
  rcases sound.returned other too with ⟨same, shownToo, parsedToo⟩
  cases shown.symm.trans shownToo
  exact Except.ok.inj (parsed.symm.trans parsedToo)

/-! ## A run -/

namespace IdState

section Answer

variable (ulids : List String)

/-- One possible course of events: every operation that is possible succeeds. -/
def answer (before : IdState) :
    (operation : IdOp) → Option (operation.Reply × IdState)
  | .readToString =>
      match before.text .agentId with
      | none => some (.error .notFound, before)
      | some text => some (.ok text, before)
  | .newUlid =>
      (ulids.find? fun ulid => ulid ∉ before.drawn && ulidText ulid).map fun ulid =>
        (ulid, { before with drawn := ulid :: before.drawn })
  | .createNew path =>
      if before.text path = none then
        some (.ok (), { before with directory := before.directory.store path "" })
      else none
  | .writeAll path text => (before.text path).map fun old =>
      (.ok (), { before with directory := before.directory.store path (old ++ text) })
  | .syncFile path =>
      if before.text path ≠ none then
        some (.ok (), { before with directory := before.directory.syncFile path })
      else none
  | .rename source destination =>
      if before.text source ≠ none then
        some (.ok (), { before with directory := before.directory.rename source destination })
      else none
  | .removeFile path => some (.ok (), { before with directory := before.directory.remove path })
  | .syncDirectory =>
      some (.ok (), { before with directory := before.directory.sync, synced := true })
  | .returned id => some ((), { before with returned := id :: before.returned })

theorem step_answer (before : IdState) (operation : IdOp) (reply : operation.Reply)
    (after : IdState) (answered : before.answer ulids operation = some (reply, after)) :
    Step some before operation reply after := by
  cases operation with
  | readToString =>
      rw [answer] at answered
      split at answered
      next absent =>
        cases answered
        exact ⟨rfl, fun _ => absent, fun text impossible => by cases impossible⟩
      next text shown =>
        cases answered
        refine ⟨rfl, fun impossible => (by cases impossible), fun read same => ?_⟩
        cases same
        exact shown
  | newUlid =>
      rcases Option.map_eq_some_iff.mp answered with ⟨ulid, found, made⟩
      cases made
      have fits := List.find?_some found
      simp only [Bool.and_eq_true, decide_eq_true_eq] at fits
      exact ⟨fits.1, fits.2, rfl, rfl⟩
  | createNew path | syncFile path | rename source destination =>
      rw [answer, Option.ite_none_right_eq_some] at answered
      rcases answered with ⟨possible, made⟩
      cases made
      exact .inl ⟨possible, rfl⟩
  | writeAll path text =>
      rcases Option.map_eq_some_iff.mp answered with ⟨old, shown, made⟩
      cases made
      exact ⟨old, text, shown, fun _ => rfl, .inl ⟨trivial, rfl⟩⟩
  | removeFile path =>
      cases answered
      exact .inl ⟨trivial, rfl⟩
  | syncDirectory =>
      cases answered
      exact ⟨_, .inl ⟨trivial, rfl⟩, by simp [Except.isOk, Except.toBool]⟩
  | returned id =>
      cases answered
      rfl

end Answer

end IdState

namespace IdPool.Runs

variable {redisplay : String → Option String} {earlier : Option String}

/-- A call that begins, as far as its operations are answered. -/
theorem call {pool after : IdPool} {fuel : ℕ} {ulids : List String}
    (ran : pool.Runs some earlier) (idle : pool.tasks () = .pure ())
    (answered : Pool.runTask (fun _ => IdState.answer ulids) () fuel
      ⟨Function.update pool.tasks () (Installation.call some), pool.state⟩ = some after) :
    after.Runs some earlier := by
  have begun : Runs some earlier
      ⟨Function.update pool.tasks () (Installation.call some), pool.state⟩ :=
    .move ran (.start idle rfl)
  have moves := @Pool.move_runTask _ _ _ _ _ _ (fun _ program =>
    program = Installation.call some) _ (fun _ => IdState.step_answer ulids) _ _ _ _ answered
  clear answered
  induction moves with
  | refl => exact begun
  | tail _ moved ih => exact ih.move moved

end IdPool.Runs

namespace Sample

def idUlids : List String :=
  ["01J8ZQ4N7V3K5T9XWBRC2D6FGH", "01J8ZQ5A2B3C4D5E6F7G8H9JKM"]

/-- The pool after a call with so many operations. -/
def idCall (fuel : ℕ) (pool : IdPool) : IdPool :=
  (Pool.runTask (fun _ => IdState.answer idUlids) () fuel
    ⟨Function.update pool.tasks () (Installation.call some), pool.state⟩).getD pool

theorem runs_idCall {pool : IdPool} {fuel : ℕ} (ran : pool.Runs some none)
    (idle : pool.tasks () = .pure ()) : (idCall fuel pool).Runs some none := by
  unfold idCall
  cases answered : Pool.runTask (fun _ => IdState.answer idUlids) () fuel
      ⟨Function.update pool.tasks () (Installation.call some), pool.state⟩ with
  | none => exact ran
  | some after => exact ran.call idle answered

/-- A call after another one has ended or was cut off. -/
def idThen (fuel : ℕ) (pool : IdPool) : IdPool := idCall fuel ⟨fun _ => .pure (), pool.state⟩

/-- The first call makes the file, and the second one reads it. -/
def idTwice : IdPool := idThen 40 (idThen 40 ⟨fun _ => .pure (), .init none⟩)

/-- The first call is cut off after its `rename`; the second one reads what is seen. -/
def idUnsettled : IdPool := idThen 40 (idThen 8 ⟨fun _ => .pure (), .init none⟩)

theorem runs_idThen {pool : IdPool} {fuel : ℕ} (ran : pool.Runs some none) :
    (idThen fuel pool).Runs some none :=
  runs_idCall ran.stop rfl

end Sample

theorem installation_id_is_stable_twice :
    Sample.idTwice.state.returned = ["01J8ZQ4N7V3K5T9XWBRC2D6FGH", "01J8ZQ4N7V3K5T9XWBRC2D6FGH"] ∧
      ∃ text, Sample.idTwice.state.directory.Durable .agentId text := by
  have ran : Sample.idTwice.Runs some none := Sample.runs_idThen (Sample.runs_idThen .start)
  exact ⟨by decide +kernel, (installation_id_is_stable ran).2.2 (by decide +kernel)⟩

/-- Without a sync after it, the `rename` of a call that was cut off is lost with the power. -/
theorem unsettled_id_is_lost : ∃ directory : Directory IdFile String,
    Sample.idUnsettled.Runs some none ∧
      Sample.idUnsettled.state.returned = ["01J8ZQ4N7V3K5T9XWBRC2D6FGH"] ∧
      Sample.idUnsettled.state.directory.Lost directory ∧
        ∀ path, directory.entries path = none := by
  have ran : Sample.idUnsettled.Runs some none := Sample.runs_idThen (Sample.runs_idThen .start)
  have first : Sample.idUnsettled.state.directory.past.getLast? =
      some (IdState.init none).directory.entries := rfl
  refine ⟨.empty, ran, by decide +kernel, ⟨fun path => ⟨none, .inr ?_, .absent⟩, rfl⟩,
    fun path => rfl⟩
  refine ⟨_, List.mem_of_getLast? first, ?_⟩
  cases path <;> rfl

end LzuMirror
