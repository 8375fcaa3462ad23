import LzuMirror.Lib.Directory
import LzuMirror.Lib.Interleaving
import LzuMirror.Store.Credentials

/-!
# Issuing a credential

`node credential issue` of the command line, with the server that issues and revokes
and the directories of the token files. Any number of commands and of other clients of
the server interleave; requests and answers get lost, every operation on a file may
fail, a command may be cut off anywhere, and the machine it runs on may lose power.

A credential that a command was given is not forgotten: its token is in the token file
for good, or it is revoked, or the command has named it as one that may have to be
revoked by hand. A token file is complete as soon as it is there, and no other command
replaces it.
-/

namespace LzuMirror

/-- A token file, or the temporary file of a `PendingSecretFile`. -/
inductive TokenName where
  | final (name : String)
  | temporary (ulid : String)
  deriving DecidableEq, Repr

structure TokenPath where
  parent : String
  name : String
  deriving DecidableEq, Repr

/-- What a `CredentialIssueResponse` says of the new credential. -/
structure IssuedCredential where
  id : String
  token : String
  deriving DecidableEq, Repr

/-- What the command ends with. -/
inductive IssueOutcome where
  | published (path : TokenPath) (id : String)
  -- there was no answer with a credential
  | failed (error : String)
  | revoked (id error : String)
  | unconfirmed (id error : String)
  deriving DecidableEq, Repr

/-- The operations of a command; `call` is a call of another client. -/
inductive IssueOp where
  | pathExists (path : TokenPath)
  | parentIsDir (parent : String)
  | newUlid
  | createNew (parent ulid : String)
  | issue (node : String) (label : Option String)
  | writeLine (parent ulid token : String)
  | syncFile (parent ulid : String)
  | hardLink (parent ulid name : String)
  | removeFile (parent ulid : String)
  | syncDirectory (parent : String)
  | revoke (node id : String)
  | returned (outcome : IssueOutcome)
  | call (call : CredentialCall)

abbrev IssueOp.Reply : IssueOp → Type
  | .pathExists _ | .parentIsDir _ | .revoke _ _ => Bool
  | .newUlid => String
  | .issue _ _ => Except String IssuedCredential
  | .createNew _ _ | .writeLine _ _ _ | .syncFile _ _ | .hardLink _ _ _ | .removeFile _ _
  | .syncDirectory _ => Except String Unit
  | .returned _ | .call _ => Unit

abbrev IssueM := ExceptT String (Program IssueOp IssueOp.Reply)

namespace Issuance

/-- `PendingSecretFile::prepare`, for a path with a parent. -/
def prepare (path : TokenPath) : IssueM String := do
  if ← ExceptT.lift (Program.request (IssueOp.pathExists path)) then
    throw "refusing to overwrite existing token file"
  else if ← ExceptT.lift (Program.request (IssueOp.parentIsDir path.parent)) then
    let ulid ← ExceptT.lift (Program.request IssueOp.newUlid)
    ExceptT.mk (Program.request (IssueOp.createNew path.parent ulid))
    return ulid
  else throw "token file parent does not exist or is not a directory"

/-- `PendingSecretFile::publish`. -/
def publish (path : TokenPath) (ulid token : String) : IssueM Unit := do
  ExceptT.mk (Program.request (IssueOp.writeLine path.parent ulid token))
  ExceptT.mk (Program.request (IssueOp.syncFile path.parent ulid))
  ExceptT.mk (Program.request (IssueOp.hardLink path.parent ulid path.name))
  ExceptT.mk (Program.request (IssueOp.removeFile path.parent ulid))
  ExceptT.mk (Program.request (IssueOp.syncDirectory path.parent))

/-- `PendingSecretFile::drop`, whose error is ignored. -/
def drop (path : TokenPath) (ulid : String) : Program IssueOp IssueOp.Reply Unit := do
  let _ ← Program.request (IssueOp.removeFile path.parent ulid)

/-- `publish_credential_or_revoke`. -/
def publishCredentialOrRevoke (node : String) (path : TokenPath) (ulid : String)
    (issued : IssuedCredential) : Program IssueOp IssueOp.Reply IssueOutcome := do
  let published ← (publish path ulid issued.token).run
  drop path ulid
  match published with
  | .error error =>
      let revoked ← Program.request (IssueOp.revoke node issued.id)
      return if revoked then .revoked issued.id error else .unconfirmed issued.id error
  | .ok _ => return .published path issued.id

/-- The command `node credential issue` and its return. -/
def command (node : String) (label : Option String) (path : TokenPath) :
    Program IssueOp IssueOp.Reply Unit := do
  match ← (prepare path).run with
  | .error error => Program.request (IssueOp.returned (.failed error))
  | .ok ulid =>
      match ← Program.request (IssueOp.issue node label) with
      | .error error =>
          drop path ulid
          Program.request (IssueOp.returned (.failed error))
      | .ok issued =>
          let outcome ← publishCredentialOrRevoke node path ulid issued
          Program.request (IssueOp.returned outcome)

end Issuance

/-! ## The machine and the server -/

/-- What has become of a credential that the server issued for a command. -/
inductive IssueStatus where
  -- the answer did not arrive
  | lost
  | held
  -- the command was cut off
  | cut
  | told (outcome : IssueOutcome)
  deriving DecidableEq, Repr

structure Issued where
  task : ℕ
  node : String
  id : String
  token : String
  status : IssueStatus
  deriving DecidableEq, Repr

/-- What `writeln!` writes. -/
def Issued.line (issued : Issued) : String := issued.token ++ "\n"

structure IssueState where
  directories : String → Directory TokenName String
  drawn : String → Option ℕ
  store : CredentialStore
  ledger : List Issued

namespace IssueState

def init (store : CredentialStore) : IssueState := ⟨fun _ => .empty, fun _ => none, store, []⟩

def inDirectory (state : IssueState) (parent : String) (directory : Directory TokenName String) :
    IssueState :=
  { state with directories := Function.update state.directories parent directory }

/-- The credentials that the tasks hold get another status. -/
def settle (state : IssueState) (tasks : ℕ → Bool) (status : IssueStatus) : IssueState :=
  { state with
    ledger := state.ledger.map fun issued =>
      if tasks issued.task ∧ issued.status = .held then { issued with status } else issued }

/-- A change of a directory that may fail, with or without effect. -/
def Attempts (before : IssueState) (parent : String) (possible : Prop)
    (effect : Directory TokenName String) (reply : Except String Unit) (after : IssueState) :
    Prop :=
  possible ∧ after = before.inDirectory parent effect ∨
    (∃ error, reply = .error error) ∧ after = before

section Steps

variable (tokenHash : String → String)

/-- What an operation of a task may do. -/
def Step (task : ℕ) : Program.Semantics IssueOp IssueOp.Reply IssueState
  | before, .pathExists _, _, after => after = before
  | before, .parentIsDir _, _, after => after = before
  | before, .newUlid, ulid, after => before.drawn ulid = none ∧
      after = { before with drawn := Function.update before.drawn ulid (some task) }
  | before, .createNew parent ulid, reply, after =>
      before.Attempts parent ((before.directories parent).entries (.temporary ulid) = none)
        ((before.directories parent).store (.temporary ulid) "") reply after
  -- the server may have issued a credential and the answer got lost
  | before, .issue node label, reply, after =>
      (∃ error, reply = .error error) ∧ after = before ∨
        ∃ id token now faults record store status,
          before.store.issueCredential faults node id label (tokenHash token) now =
            (.ok record, store) ∧
          after = { before with
            store, ledger := ⟨task, node, id, token, status⟩ :: before.ledger } ∧
          (reply = .ok ⟨id, token⟩ ∧ status = .held ∨
            (∃ error, reply = .error error) ∧ status = .lost)
  -- a failed write leaves any part of the text
  | before, .writeLine parent ulid token, reply, after =>
      ∃ text, (reply = .ok () → text = token ++ "\n") ∧
        before.Attempts parent True ((before.directories parent).store (.temporary ulid) text)
          reply after
  | before, .syncFile parent ulid, reply, after =>
      before.Attempts parent True ((before.directories parent).syncFile (.temporary ulid)) reply
        after
  | before, .hardLink parent ulid name, reply, after =>
      before.Attempts parent
        ((before.directories parent).entries (.temporary ulid) ≠ none ∧
          (before.directories parent).entries (.final name) = none)
        ((before.directories parent).link (.temporary ulid) (.final name)) reply after
  | before, .removeFile parent ulid, reply, after =>
      before.Attempts parent True ((before.directories parent).remove (.temporary ulid)) reply
        after
  | before, .syncDirectory parent, reply, after =>
      before.Attempts parent True (before.directories parent).sync reply after
  | before, .revoke node id, reply, after =>
      reply = false ∧ after = before ∨
        ∃ now faults record store,
          before.store.revokeCredential faults node id now = (.ok record, store) ∧
            after = { before with store }
  | before, .returned outcome, _, after => 
      after = before.settle (· = task) (.told outcome)
  | before, .call call, _, after =>
      ∃ faults, after = { before with store := (call.run faults tokenHash before.store).2 }

/-- What a task runs. -/
def Starts (program : Program IssueOp IssueOp.Reply Unit) : Prop :=
  (∃ node label path, program = Issuance.command node label path) ∨
    ∃ call, program = Program.request (IssueOp.call call)

end Steps

end IssueState

abbrev IssuePool := Pool ℕ IssueOp IssueOp.Reply IssueState

/-- The runs of the commands and the server. -/
inductive IssuePool.Runs (tokenHash : String → String) (store : CredentialStore) :
    IssuePool → Prop where
  | start : Runs tokenHash store ⟨fun _ => .pure (), .init store⟩
  | move {pool after : IssuePool} (ran : Runs tokenHash store pool)
      (moved : Pool.Move (IssueState.Step tokenHash) (fun _ => IssueState.Starts) pool after) :
      Runs tokenHash store after
  | stop {pool : IssuePool} (ran : Runs tokenHash store pool) (task : ℕ) :
      Runs tokenHash store
        ⟨Function.update pool.tasks task (.pure ()), pool.state.settle (· = task) .cut⟩
  | powerLoss {pool : IssuePool} {directories : String → Directory TokenName String}
      (ran : Runs tokenHash store pool)
      (lost : ∀ parent, (pool.state.directories parent).Lost (directories parent)) :
      Runs tokenHash store
        ⟨fun _ => .pure (), { pool.state.settle (fun _ => true) .cut with directories }⟩

/-! ## What the server keeps -/

namespace CredentialStore

/-- Every credential is still there with its token, and a revoked one is still revoked. -/
def Retains (before after : CredentialStore) : Prop :=
  ∀ row ∈ before.credentials, ∃ other ∈ after.credentials, other.key = row.key ∧
    other.tokenHash = row.tokenHash ∧ (row.revokedAtMs ≠ none → other.revokedAtMs ≠ none)

/-- The credential is there with the hash of its token. -/
def Lists (store : CredentialStore) (node id hash : String) : Prop :=
  ∃ row ∈ store.credentials, row.key = (node, id) ∧ row.tokenHash = hash

/-- The credential is there and revoked. -/
def Revoked (store : CredentialStore) (node id : String) : Prop :=
  ∃ row ∈ store.credentials, row.key = (node, id) ∧ row.revokedAtMs ≠ none

variable {store before after : CredentialStore} {tokenHash : String → String} {faults : ℕ → Bool}
  {node credential hash : String} {now : ℤ}

theorem Retains.refl (store : CredentialStore) : store.Retains store :=
  fun row member => ⟨row, member, rfl, rfl, fun revoked => revoked⟩

theorem Retains.trans {middle : CredentialStore} (first : before.Retains middle)
    (second : middle.Retains after) : before.Retains after := by
  intro row member
  rcases first row member with ⟨other, otherMem, key, hash, revoked⟩
  rcases second other otherMem with ⟨last, lastMem, lastKey, lastHash, lastRevoked⟩
  exact ⟨last, lastMem, lastKey.trans key, lastHash.trans hash, lastRevoked ∘ revoked⟩

theorem Retains.lists (retains : before.Retains after)
    (listed : before.Lists node credential hash) : after.Lists node credential hash := by
  rcases listed with ⟨row, member, keyed, hashed⟩
  rcases retains row member with ⟨other, otherMem, key, same, _⟩
  exact ⟨other, otherMem, key.trans keyed, same.trans hashed⟩

theorem Retains.revoked (retains : before.Retains after)
    (revoked : before.Revoked node credential) : after.Revoked node credential := by
  rcases revoked with ⟨row, member, keyed, ended⟩
  rcases retains row member with ⟨other, otherMem, key, _, still⟩
  exact ⟨other, otherMem, key.trans keyed, still ended⟩

/-- A credential that is not revoked authenticates its node. -/
theorem Lists.authenticates (listed : store.Lists node credential hash)
    (active : ¬store.Revoked node credential) :
    store.authenticateCredential hash = some (node, credential) := by
  rcases listed with ⟨row, member, keyed, hashed⟩
  apply authenticateCredential_eq_some.mpr
  refine ⟨row, member, keyed, hashed, ?_⟩
  by_contra ended
  exact active ⟨row, member, keyed, ended⟩

theorem retains_of_eq (same : after.credentials = store.credentials) : store.Retains after := by
  intro row member
  rw [← same] at member
  exact ⟨row, member, rfl, rfl, fun revoked => revoked⟩

theorem insertCredential_eq_ok {label : Option String}
    (inserted : store.insertCredential node credential hash now label = .ok after) :
    store.Retains after ∧ after.Lists node credential hash := by
  unfold insertCredential at inserted
  simp only at inserted
  split at inserted
  · split at inserted
    · split at inserted
      next => cases inserted
      next credentials rowInserted =>
        cases inserted
        have members := (Table.insert?_eq_some rowInserted).2
        constructor
        · intro row member
          exact ⟨row, (members row).mpr (.inl member), rfl, rfl, fun revoked => revoked⟩
        · exact ⟨_, (members _).mpr (.inr rfl), rfl, rfl⟩
    · cases inserted
  · cases inserted

theorem retains_update (update : Update) : store.Retains (store.update update) := by
  intro row member
  have facts := update.rewrite_facts row
  exact ⟨update.rewrite row, List.mem_map_of_mem member, facts.1, facts.2.1,
    fun revoked active => revoked (facts.2.2 active)⟩

theorem issueCredential_eq_ok {label : Option String} {record : CredentialRecord}
    (issued : store.issueCredential faults node credential label hash now = (.ok record, after)) :
    store.Retains after ∧ after.Lists node credential hash := by
  unfold issueCredential transact at issued
  split at issued
  · cases issued
  next reply committed result =>
    cases issued
    simp only [bind_eq_ok, statement_eq_ok, Except.ok.injEq, pure_eq_ok, Prod.mk.injEq] at result
    rcases result with ⟨_, ⟨_, rfl⟩, _, ⟨_, inserted⟩, _, ⟨_, rfl⟩, _, rfl⟩
    rcases insertCredential_eq_ok inserted with ⟨retains, listed⟩
    exact ⟨(retains_of_eq (insertNode_credentials store _)).trans retains, listed⟩

theorem revokeCredential_eq_ok {record : CredentialRecord}
    (revoked : store.revokeCredential faults node credential now = (.ok record, after)) :
    store.Retains after ∧ after.Revoked node credential := by
  unfold revokeCredential transact at revoked
  split at revoked
  · cases revoked
  next reply committed result =>
    cases revoked
    simp only [bind_eq_ok, statement_eq_ok, Except.ok.injEq] at result
    rcases result with ⟨existing, ⟨_, found⟩, result⟩
    split at result
    · cases result
    next row =>
      simp only [bind_eq_ok, statement_eq_ok, Except.ok.injEq, pure_eq_ok, Prod.mk.injEq]
        at result
      rcases result with ⟨_, ⟨_, rfl⟩, _, ⟨_, rfl⟩, _, rfl⟩
      rcases Table.find?_eq_some_iff.mp found with ⟨member, keyed⟩
      refine ⟨retains_update _, (revocation node credential now).rewrite row,
        List.mem_map_of_mem member, ?_, ?_⟩
      · exact ((revocation node credential now).rewrite_facts row).1.trans keyed
      · cases former : row.revokedAtMs <;> simp [Update.rewrite, revocation, keyed, former]

theorem transact_retains {α : Type} {result : Except StoreError (α × CredentialStore)}
    (retains : ∀ reply after, result = .ok (reply, after) → store.Retains after) :
    store.Retains (transact result store).2 := by
  cases result with
  | error error => exact .refl store
  | ok committed => exact retains committed.1 committed.2 rfl

/-- A call retains what is there, whether it fails or not. -/
theorem retains_run (call : CredentialCall) :
    store.Retains (call.run faults tokenHash store).2 := by
  cases call with
  | importLegacy node token now =>
      apply transact_retains
      intro reply after committed
      simp only [bind_eq_ok, statement_eq_ok, Except.ok.injEq] at committed
      rcases committed with ⟨_, ⟨_, rfl⟩, history, ⟨_, rfl⟩, committed⟩
      apply (retains_of_eq (insertNode_credentials store _)).trans
      split at committed
      · simp only [bind_eq_ok, statement_eq_ok, Except.ok.injEq, pure_eq_ok, Prod.mk.injEq]
          at committed
        rcases committed with ⟨_, ⟨_, rfl⟩, _, rfl⟩
        exact .refl _
      · simp only [bind_eq_ok, statement_eq_ok, Except.ok.injEq, pure_eq_ok, Prod.mk.injEq]
          at committed
        rcases committed with ⟨_, ⟨_, inserted⟩, _, ⟨_, rfl⟩, _, rfl⟩
        exact (insertCredential_eq_ok inserted).1
  | issue node id label token now =>
      apply transact_retains
      intro reply after committed
      simp only [bind_eq_ok, statement_eq_ok, Except.ok.injEq, pure_eq_ok, Prod.mk.injEq]
        at committed
      rcases committed with ⟨_, ⟨_, rfl⟩, _, ⟨_, inserted⟩, _, ⟨_, rfl⟩, _, rfl⟩
      apply (retains_of_eq (insertNode_credentials store _)).trans
      exact (insertCredential_eq_ok inserted).1
  | revoke node id now =>
      apply transact_retains
      intro reply after committed
      simp only [bind_eq_ok, statement_eq_ok, Except.ok.injEq] at committed
      rcases committed with ⟨existing, ⟨_, rfl⟩, committed⟩
      split at committed
      · cases committed
      · simp only [bind_eq_ok, statement_eq_ok, Except.ok.injEq, pure_eq_ok, Prod.mk.injEq]
          at committed
        rcases committed with ⟨_, ⟨_, rfl⟩, _, ⟨_, rfl⟩, _, rfl⟩
        exact retains_update _
  | markUsed node id now =>
      apply transact_retains
      intro reply after committed
      simp only [bind_eq_ok, statement_eq_ok, Except.ok.injEq, pure_eq_ok, Prod.mk.injEq]
        at committed
      rcases committed with ⟨_, ⟨_, rfl⟩, _, rfl⟩
      exact retains_update _

end CredentialStore

/-! ## What the tasks keep -/

/-- What is so after a command that has returned this about its credential. -/
def IssueOutcome.Holds (state : IssueState) (issued : Issued) : IssueOutcome → Prop
  | .published path id => id = issued.id ∧
      (state.directories path.parent).Durable (.final path.name) issued.line
  | .failed _ => False
  | .revoked id _ => id = issued.id ∧ state.store.Revoked issued.node issued.id
  | .unconfirmed id _ => id = issued.id

namespace IssueState

/-- What a token file may show: nothing, or the line of a credential that a command was given. -/
def Complete (ledger : List Issued) (entry : Option (StoredFile String)) : Prop :=
  entry = none ∨ ∃ issued ∈ ledger, issued.status ≠ .lost ∧ entry = some ⟨issued.line, true⟩

/-- The invariant of the machine and the server. -/
structure Sound (tokenHash : String → String) (state : IssueState) : Prop where
  fresh : ∀ ulid, state.drawn ulid = none → ∀ parent,
    (state.directories parent).Certain (.temporary ulid) fun entry => entry = none
  finals : ∀ parent name,
    (state.directories parent).Certain (.final name) (Complete state.ledger)
  listed : ∀ issued ∈ state.ledger,
    state.store.Lists issued.node issued.id (tokenHash issued.token)
  told : ∀ issued ∈ state.ledger, ∀ outcome, issued.status = .told outcome →
    outcome.Holds state issued

/-- No step takes a token file away, or a credential. -/
structure Keeps (before after : IssueState) : Prop where
  finals : ∀ parent name, (before.directories parent).entries (.final name) ≠ none →
    Directory.Leaves (.final name) (before.directories parent) (after.directories parent)
  store : before.store.Retains after.store

/-- The temporary files and the credentials of the spared tasks are left alone. -/
structure Spares (spared : ℕ → Prop) (before after : IssueState) : Prop extends
    Keeps before after where
  temporaries : ∀ ulid task, spared task → before.drawn ulid = some task →
    after.drawn ulid = some task ∧ ∀ parent, Directory.Leaves (.temporary ulid)
      (before.directories parent) (after.directories parent)
  ledger : ∀ issued, spared issued.task → (issued ∈ after.ledger ↔ issued ∈ before.ledger)

/-- What a task may assume of the others. -/
def Rely (task : ℕ) : IssueState → IssueState → Prop := Spares (· = task)

/-- What a task promises. -/
def Guarantee (task : ℕ) : IssueState → IssueState → Prop := Spares (· ≠ task)

section Sound

variable {tokenHash : String → String} {state before middle after : IssueState}
  {spared fewer : ℕ → Prop} {task : ℕ} {issued : Issued} {outcome : IssueOutcome}

theorem Keeps.refl (state : IssueState) : Keeps state state := ⟨fun _ _ _ => .refl _, .refl _⟩

/-- Nothing that is kept has changed. -/
theorem keeps_of_same (directories : after.directories = before.directories)
    (store : after.store = before.store) : Keeps before after where
  finals parent name _ := by
    rw [directories]
    exact .refl _
  store := by
    rw [store]
    exact .refl _

theorem Keeps.trans (first : Keeps before middle) (second : Keeps middle after) :
    Keeps before after where
  finals parent name present := by
    have left := first.finals parent name present
    exact left.trans (second.finals parent name (left.entries ▸ present))
  store := first.store.trans second.store

theorem Keeps.holds (keeps : Keeps before after) (held : outcome.Holds before issued) :
    outcome.Holds after issued := by
  cases outcome with
  | published path id =>
      refine ⟨held.1, (keeps.finals _ _ ?_).certain held.2⟩
      simp [held.2.entry]
  | failed error => exact held
  | revoked id error => exact ⟨held.1, keeps.store.revoked held.2⟩
  | unconfirmed id error => exact held

theorem Spares.refl (state : IssueState) : Spares spared state state :=
  ⟨.refl _, fun _ _ _ mine => ⟨mine, fun _ => .refl _⟩, fun _ _ => Iff.rfl⟩

theorem Spares.trans (first : Spares spared before middle) (second : Spares spared middle after) :
    Spares spared before after where
  toKeeps := first.toKeeps.trans second.toKeeps
  temporaries ulid task isSpared mine := by
    rcases first.temporaries ulid task isSpared mine with ⟨still, left⟩
    rcases second.temporaries ulid task isSpared still with ⟨last, leftToo⟩
    exact ⟨last, fun parent => (left parent).trans (leftToo parent)⟩
  ledger issued isSpared := (second.ledger issued isSpared).trans (first.ledger issued isSpared)

theorem Spares.mono (spares : Spares spared before after)
    (implied : ∀ task, fewer task → spared task) : Spares fewer before after where
  toKeeps := spares.toKeeps
  temporaries ulid task isSpared := spares.temporaries ulid task (implied task isSpared)
  ledger issued isSpared := spares.ledger issued (implied _ isSpared)

theorem Complete.mono {ledger later : List Issued} {entry : Option (StoredFile String)}
    (complete : Complete ledger entry)
    (implied : ∀ issued ∈ ledger, issued.status ≠ .lost →
      ∃ other ∈ later, other.status ≠ .lost ∧ other.line = issued.line) :
    Complete later entry := by
  rcases complete with nothing | ⟨issued, member, answered, shown⟩
  · exact .inl nothing
  · rcases implied issued member answered with ⟨other, listed, answeredToo, same⟩
    exact .inr ⟨other, listed, answeredToo, by rw [same, shown]⟩

/-! ### Changes of the state -/

@[simp]
theorem inDirectory_self {parent : String} {directory : Directory TokenName String} :
    (before.inDirectory parent directory).directories parent = directory := by
  simp [inDirectory]

theorem inDirectory_of_ne {parent other : String} {directory : Directory TokenName String}
    (apart : other ≠ parent) :
    (before.inDirectory parent directory).directories other = before.directories other := by
  simp [inDirectory, Function.update_of_ne apart]

theorem leaves_inDirectory {parent other : String} {directory : Directory TokenName String}
    {name : TokenName}
    (left : other = parent → Directory.Leaves name (before.directories parent) directory) :
    Directory.Leaves name (before.directories other)
      ((before.inDirectory parent directory).directories other) := by
  by_cases same : other = parent
  · rw [same, inDirectory_self]
    exact left same
  · rw [inDirectory_of_ne same]
    exact .refl _

/-- A directory changes: temporary files of one task, and at most a new token file. -/
theorem spares_inDirectory {parent ulid : String} {directory : Directory TokenName String}
    (mine : before.drawn ulid = some task)
    (temporaries : ∀ other, other ≠ ulid →
      Directory.Leaves (.temporary other) (before.directories parent) directory)
    (finals : ∀ name, (before.directories parent).entries (.final name) ≠ none →
      Directory.Leaves (.final name) (before.directories parent) directory) :
    Guarantee task before (before.inDirectory parent directory) where
  finals other name present := leaves_inDirectory fun same => finals name (same ▸ present)
  store := .refl _
  temporaries other owner foreign owned := by
    refine ⟨owned, fun _ => leaves_inDirectory fun _ => temporaries other ?_⟩
    rintro rfl
    exact foreign (Option.some.inj (owned.symm.trans mine))
  ledger _ _ := Iff.rfl

theorem Sound.inDirectory (sound : before.Sound tokenHash) {parent : String}
    {directory : Directory TokenName String}
    (keeps : Keeps before (before.inDirectory parent directory))
    (fresh : ∀ ulid, before.drawn ulid = none →
      Directory.Leaves (.temporary ulid) (before.directories parent) directory)
    (finals : ∀ name, directory.Certain (.final name) (Complete before.ledger)) :
    (before.inDirectory parent directory).Sound tokenHash where
  fresh ulid undrawn other :=
    (leaves_inDirectory fun _ => fresh ulid undrawn).certain (sound.fresh ulid undrawn other)
  finals other name := by
    by_cases same : other = parent
    · rw [same, inDirectory_self]
      exact finals name
    · rw [inDirectory_of_ne same]
      exact sound.finals other name
  listed := sound.listed
  told issued member outcome answered := keeps.holds (sound.told issued member outcome answered)

/-- The server goes on. -/
theorem Sound.store (sound : before.Sound tokenHash) {store : CredentialStore}
    (retains : before.store.Retains store) : { before with store }.Sound tokenHash where
  fresh := sound.fresh
  finals := sound.finals
  listed issued member := retains.lists (sound.listed issued member)
  told issued member outcome answered := by
    have keeps : Keeps before { before with store } := ⟨fun _ _ _ => .refl _, retains⟩
    exact keeps.holds (sound.told issued member outcome answered)

theorem mem_settle {tasks : ℕ → Bool} {status : IssueStatus} :
    issued ∈ (before.settle tasks status).ledger ↔
      (issued ∈ before.ledger ∧ ¬(tasks issued.task ∧ issued.status = .held)) ∨
        ∃ old ∈ before.ledger, (tasks old.task ∧ old.status = .held) ∧
          issued = { old with status } := by
  simp only [settle, List.mem_map]
  constructor
  · rintro ⟨old, member, rfl⟩
    split
    next ended => exact .inr ⟨old, member, ended, rfl⟩
    next going => exact .inl ⟨member, going⟩
  · rintro (⟨member, going⟩ | ⟨old, member, ended, rfl⟩)
    · exact ⟨issued, member, if_neg going⟩
    · exact ⟨old, member, if_pos ended⟩

/-- The credentials of some tasks are settled, each as the state has it. -/
theorem Sound.settle (sound : before.Sound tokenHash) {tasks : ℕ → Bool} {status : IssueStatus}
    (answered : status ≠ .lost)
    (holds : ∀ issued ∈ before.ledger, tasks issued.task = true → issued.status = .held →
      ∀ outcome, status = .told outcome → outcome.Holds before issued) :
    (before.settle tasks status).Sound tokenHash where
  fresh := sound.fresh
  finals parent name := by
    refine (sound.finals parent name).imp fun entry complete => complete.mono ?_
    intro issued member got
    by_cases ended : tasks issued.task ∧ issued.status = .held
    · exact ⟨_, mem_settle.mpr (.inr ⟨issued, member, ended, rfl⟩), answered, rfl⟩
    · exact ⟨issued, mem_settle.mpr (.inl ⟨member, ended⟩), got, rfl⟩
  listed issued member := by
    rcases mem_settle.mp member with ⟨old, _⟩ | ⟨old, oldMem, _, rfl⟩
    · exact sound.listed issued old
    · exact sound.listed old oldMem
  told issued member outcome told := by
    rcases mem_settle.mp member with ⟨old, _⟩ | ⟨old, oldMem, ended, rfl⟩
    · exact sound.told issued old outcome told
    · have held := holds old oldMem ended.1 ended.2 outcome told
      cases outcome <;> exact held

end Sound

/-! ## The stages of a command -/

/-- The credential that the task holds, if there is one. -/
def Holding (task : ℕ) (credential : Option Issued) (state : IssueState) : Prop :=
  ∀ issued, issued ∈ state.ledger ∧ issued.task = task ∧ issued.status = .held ↔
    credential = some issued

/-- What a command knows of its temporary file, its credential and the directory. -/
structure Stage (task : ℕ) (path : TokenPath) (ulid : String) (credential : Option Issued)
    (known : Directory TokenName String → Prop) (state : IssueState) : Prop where
  mine : state.drawn ulid = some task
  holding : Holding task credential state
  known : known (state.directories path.parent)

/-- It depends on the temporary file and on the token files that are there. -/
def Steady (ulid : String) (known : Directory TokenName String → Prop) : Prop :=
  ∀ before after : Directory TokenName String,
    Directory.Leaves (.temporary ulid) before after →
    (∀ name, before.entries (.final name) ≠ none →
      Directory.Leaves (.final name) before after) → known before → known after

/-- Nothing is known. -/
def Unknown (_ : Directory TokenName String) : Prop := True

/-- A file of the directory. -/
def Has (name : TokenName) (file : StoredFile String) (directory : Directory TokenName String) :
    Prop :=
  directory.entries name = some file

/-- The token file is there for ever. -/
def Published (path : TokenPath) (line : String) (directory : Directory TokenName String) : Prop :=
  directory.Durable (.final path.name) line

/-- What holds after a success, and after a failure. -/
def Ends {α : Type} (failed : IssueState → Prop) (post : α → IssueState → Prop) :
    Except String α → IssueState → Prop
  | .ok value, after => post value after
  | .error _, after => failed after

section Stages

variable {tokenHash : String → String} {state before after : IssueState} {task : ℕ}
  {path : TokenPath} {ulid : String} {credential : Option Issued}
  {known next : Directory TokenName String → Prop}

theorem steady_unknown : Steady ulid Unknown := fun _ _ _ _ _ => trivial

theorem steady_temporary {file : StoredFile String} : Steady ulid (Has (.temporary ulid) file) :=
  fun _ _ left _ shown => left.entries.trans shown

theorem steady_final {name : String} {file : StoredFile String} :
    Steady ulid (Has (.final name) file) := by
  intro before after _ finals shown
  have present : before.entries (.final name) ≠ none := by
    rw [shown]
    simp
  exact (finals name present).entries.trans shown

theorem steady_published {line : String} : Steady ulid (Published path line) := by
  intro before after _ finals durable
  exact (finals path.name (by simp [durable.entry])).certain durable

theorem Holding.stable (holding : Holding task credential before)
    (relied : Rely task before after) : Holding task credential after := by
  intro issued
  rw [← holding issued]
  constructor
  · rintro ⟨member, mine, held⟩
    exact ⟨(relied.ledger issued mine).mp member, mine, held⟩
  · rintro ⟨member, mine, held⟩
    exact ⟨(relied.ledger issued mine).mpr member, mine, held⟩

theorem Stage.stable (stage : Stage task path ulid credential known before)
    (steady : Steady ulid known) (relied : Rely task before after) :
    Stage task path ulid credential known after := by
  rcases relied.temporaries ulid task rfl stage.mine with ⟨mine, left⟩
  exact ⟨mine, stage.holding.stable relied,
    steady _ _ (left path.parent) (relied.finals path.parent) stage.known⟩

/-- The rule for one operation of a stage. -/
theorem safe_request {operation : IssueOp} {post : operation.Reply → IssueState → Prop}
    (stage : Stage task path ulid credential known state) (steady : Steady ulid known)
    (steps : ∀ before reply after, Stage task path ulid credential known before →
      before.Sound tokenHash → Step tokenHash task before operation reply after →
        (Guarantee task before after ∧ after.Sound tokenHash) ∧ post reply after) :
    (Program.request operation).Safe (Step tokenHash task) (Rely task) (Guarantee task)
      (Sound tokenHash) post state :=
  fun before reply after relied sound performed =>
    steps before reply after (stage.stable steady relied) sound performed

/-- A change of the directory that may fail. -/
theorem Stage.attempts (stage : Stage task path ulid credential known before)
    (sound : before.Sound tokenHash) {possible : Prop} {effect : Directory TokenName String}
    {reply : Except String Unit}
    (attempted : before.Attempts path.parent possible effect reply after)
    (temporaries : ∀ other, other ≠ ulid →
      Directory.Leaves (.temporary other) (before.directories path.parent) effect)
    (finals : ∀ name, possible →
      Directory.Leaves (.final name) (before.directories path.parent) effect ∨
        (before.directories path.parent).entries (.final name) = none ∧
          effect.Certain (.final name) (Complete before.ledger)) :
    (Guarantee task before after ∧ after.Sound tokenHash) ∧
      (possible ∧ after = before.inDirectory path.parent effect ∨
        (∃ error, reply = .error error) ∧ after = before) := by
  refine ⟨?_, attempted⟩
  rcases attempted with ⟨isPossible, rfl⟩ | ⟨_, rfl⟩
  · have spares := spares_inDirectory stage.mine temporaries fun name present => by
      rcases finals name isPossible with left | ⟨absent, _⟩
      · exact left
      · exact absurd absent present
    refine ⟨spares, sound.inDirectory spares.toKeeps ?_ ?_⟩
    · intro other undrawn
      apply temporaries
      rintro rfl
      cases undrawn.symm.trans stage.mine
    · intro name
      rcases finals name isPossible with left | ⟨_, complete⟩
      · exact left.certain (sound.finals path.parent name)
      · exact complete
  · exact ⟨.refl _, sound⟩

/-- A change of the temporary file, or a sync. -/
theorem Stage.prepares (stage : Stage task path ulid credential known before)
    (sound : before.Sound tokenHash) {possible : Prop} {effect : Directory TokenName String}
    {reply : Except String Unit}
    (attempted : before.Attempts path.parent possible effect reply after)
    (left : ∀ name, name ≠ .temporary ulid →
      Directory.Leaves name (before.directories path.parent) effect)
    (reached : next effect) :
    (Guarantee task before after ∧ after.Sound tokenHash) ∧
      Ends (Stage task path ulid credential Unknown)
        (fun _ => Stage task path ulid credential next) reply after := by
  rcases stage.attempts sound attempted (fun other apart => left _ (by simpa using apart))
    (fun name _ => .inl (left _ (by simp))) with ⟨kept, effective⟩
  refine ⟨kept, ?_⟩
  rcases effective with ⟨_, rfl⟩ | ⟨⟨error, rfl⟩, rfl⟩
  · rcases reply with error | _
    · exact ⟨stage.mine, stage.holding, trivial⟩
    · exact ⟨stage.mine, stage.holding, by simpa using reached⟩
  · exact ⟨stage.mine, stage.holding, trivial⟩

end Stages

/-! ## The token file -/

section Publish

variable {tokenHash : String → String} {state before after : IssueState} {task : ℕ}
  {path : TokenPath} {ulid token : String} {credential : Option Issued} {issued : Issued}
  {known : Directory TokenName String → Prop} {α β : Type}

/-- Every step keeps the guarantee, and the end satisfies the postcondition. -/
def Holds (tokenHash : String → String) (task : ℕ) (program : IssueM α)
    (post : Except String α → IssueState → Prop) (state : IssueState) : Prop :=
  program.run.Safe (Step tokenHash task) (Rely task) (Guarantee task) (Sound tokenHash) post state

theorem holds_bind {program : IssueM α} {next : α → IssueM β} {middle : α → IssueState → Prop}
    {failed : IssueState → Prop} {post : β → IssueState → Prop}
    (first : Holds tokenHash task program (Ends failed middle) state)
    (rest : ∀ value after, middle value after →
      Holds tokenHash task (next value) (Ends failed post) after) :
    Holds tokenHash task (program >>= next) (Ends failed post) state := by
  refine Program.safe_exceptBind.mpr (Program.Safe.imp first ?_)
  rintro (error | value) after held
  · exact held
  · exact rest value after held

theorem holds_writeLine (stage : Stage task path ulid credential Unknown state) :
    Holds tokenHash task
      (ExceptT.mk (Program.request (IssueOp.writeLine path.parent ulid token)))
      (Ends (Stage task path ulid credential Unknown)
        fun _ => Stage task path ulid credential (Has (.temporary ulid) ⟨token ++ "\n", false⟩))
      state := by
  refine safe_request stage steady_unknown ?_
  rintro before reply after stage sound ⟨text, complete, attempted⟩
  have written : (Guarantee task before after ∧ after.Sound tokenHash) ∧
      Ends (Stage task path ulid credential Unknown)
        (fun _ => Stage task path ulid credential (Has (.temporary ulid) ⟨text, false⟩))
        reply after :=
    stage.prepares sound attempted (fun name apart => Directory.leaves_store apart)
      Directory.store_entries
  refine ⟨written.1, ?_⟩
  rcases reply with error | _
  · exact written.2
  · cases complete rfl
    exact written.2

theorem holds_syncFile {line : String}
    (stage : Stage task path ulid credential (Has (.temporary ulid) ⟨line, false⟩) state) :
    Holds tokenHash task (ExceptT.mk (Program.request (IssueOp.syncFile path.parent ulid)))
      (Ends (Stage task path ulid credential Unknown)
        fun _ => Stage task path ulid credential (Has (.temporary ulid) ⟨line, true⟩)) state := by
  refine safe_request stage steady_temporary ?_
  rintro before reply after stage sound attempted
  have shown : (before.directories path.parent).entries (.temporary ulid) =
      some ⟨line, false⟩ := stage.known
  exact stage.prepares sound attempted (fun name apart => Directory.leaves_syncFile apart)
    (by simp [Has, shown])

/-- The token file appears, complete, where there was none. -/
theorem holds_hardLink
    (stage : Stage task path ulid (some issued) (Has (.temporary ulid) ⟨issued.line, true⟩)
      state) :
    Holds tokenHash task
      (ExceptT.mk (Program.request (IssueOp.hardLink path.parent ulid path.name)))
      (Ends (Stage task path ulid (some issued) Unknown)
        fun _ => Stage task path ulid (some issued) (Has (.final path.name) ⟨issued.line, true⟩))
      state := by
  refine safe_request stage steady_temporary ?_
  rintro before reply after stage sound attempted
  have linked : Has (.final path.name) ⟨issued.line, true⟩ ((before.directories path.parent).link
      (.temporary ulid) (.final path.name)) := Directory.link_entries.trans stage.known
  rcases (stage.holding issued).mpr rfl with ⟨member, _, held⟩
  have linking := stage.attempts sound attempted (fun other _ => Directory.leaves_link (by simp))
    fun name isPossible => ?_
  · refine ⟨linking.1, ?_⟩
    rcases linking.2 with ⟨_, rfl⟩ | ⟨⟨error, rfl⟩, rfl⟩
    · rcases reply with error | _
      · exact ⟨stage.mine, stage.holding, trivial⟩
      · exact ⟨stage.mine, stage.holding, by simpa using linked⟩
    · exact ⟨stage.mine, stage.holding, trivial⟩
  · by_cases same : name = path.name
    · refine .inr ⟨same ▸ isPossible.2, ?_⟩
      rw [same]
      refine Directory.Certain.change (sound.finals path.parent path.name) (.inr ?_)
      exact ⟨issued, member, by simp [held], linked⟩
    · exact .inl (Directory.leaves_link (by simpa using same))

theorem safe_removeFile (stage : Stage task path ulid credential known state)
    (steady : Steady ulid known)
    (keeps : ∀ directory, known directory → known (directory.remove (.temporary ulid))) :
    (Program.request (IssueOp.removeFile path.parent ulid)).Safe (Step tokenHash task) (Rely task)
      (Guarantee task) (Sound tokenHash) (fun _ => Stage task path ulid credential known)
      state := by
  refine safe_request stage steady ?_
  rintro before reply after stage sound attempted
  have removing := stage.attempts sound attempted
    (fun other apart => Directory.leaves_remove (by simpa using apart))
    fun name _ => .inl (Directory.leaves_remove (by simp))
  refine ⟨removing.1, ?_⟩
  rcases removing.2 with ⟨_, rfl⟩ | ⟨_, rfl⟩
  · exact ⟨stage.mine, stage.holding, by simpa using keeps _ stage.known⟩
  · exact stage

theorem holds_syncDirectory {line : String}
    (stage : Stage task path ulid credential (Has (.final path.name) ⟨line, true⟩) state) :
    Holds tokenHash task (ExceptT.mk (Program.request (IssueOp.syncDirectory path.parent)))
      (Ends (Stage task path ulid credential Unknown)
        fun _ => Stage task path ulid credential (Published path line)) state := by
  refine safe_request stage steady_final ?_
  rintro before reply after stage sound attempted
  exact stage.prepares sound attempted (fun name _ => Directory.leaves_sync)
    (Directory.durable_sync.mpr stage.known)

/-- A removal of the temporary file leaves the token files. -/
theorem leaves_final {name : String} (directory : Directory TokenName String) :
    Directory.Leaves (.final name) directory (directory.remove (.temporary ulid)) :=
  Directory.leaves_remove (by simp)

/-- `PendingSecretFile::publish` makes the token file durable, or fails. -/
theorem holds_publish (stage : Stage task path ulid (some issued) Unknown state) :
    Holds tokenHash task (Issuance.publish path ulid issued.token)
      (Ends (Stage task path ulid (some issued) Unknown)
        fun _ => Stage task path ulid (some issued) (Published path issued.line)) state := by
  refine holds_bind (holds_writeLine stage) fun _ _ stage => ?_
  refine holds_bind (holds_syncFile stage) fun _ _ stage => ?_
  refine holds_bind (holds_hardLink stage) fun _ _ stage => ?_
  refine holds_bind ?_ fun _ _ stage => holds_syncDirectory stage
  refine Program.Safe.imp (safe_removeFile stage steady_final ?_) ?_
  · exact fun directory shown => (leaves_final directory).entries.trans shown
  · rintro (error | _) after stage
    · exact ⟨stage.mine, stage.holding, trivial⟩
    · exact stage

end Publish

/-! ## The command -/

section Command

variable {tokenHash : String → String} {state before after : IssueState} {task : ℕ}
  {path : TokenPath} {ulid node : String} {label : Option String} {credential : Option Issued}
  {issued : Issued}

/-- What a command without a temporary file knows. -/
theorem safe_holding {operation : IssueOp} {post : operation.Reply → IssueState → Prop}
    (holding : Holding task credential state)
    (steps : ∀ before reply after, Holding task credential before → before.Sound tokenHash →
      Step tokenHash task before operation reply after →
        (Guarantee task before after ∧ after.Sound tokenHash) ∧ post reply after) :
    (Program.request operation).Safe (Step tokenHash task) (Rely task) (Guarantee task)
      (Sound tokenHash) post state :=
  fun before reply after relied sound performed =>
    steps before reply after (holding.stable relied) sound performed

theorem holds_newUlid (path : TokenPath) (holding : Holding task none state) :
    Holds tokenHash task (ExceptT.lift (Program.request IssueOp.newUlid))
      (Ends (Holding task none) fun ulid => Stage task path ulid none Unknown) state := by
  refine Program.safe_exceptLift.mpr (safe_holding holding ?_)
  rintro before ulid after holding sound ⟨undrawn, rfl⟩
  let drawn : IssueState :=
    { before with drawn := Function.update before.drawn ulid (some task) }
  have keeps : Keeps before drawn := keeps_of_same rfl rfl
  refine ⟨⟨⟨keeps, ?_, fun _ _ => Iff.rfl⟩, ?_⟩, by simp, holding, trivial⟩
  · intro other owner foreign owned
    have apart : other ≠ ulid := by
      rintro rfl
      cases undrawn.symm.trans owned
    exact ⟨by simpa [Function.update_of_ne apart] using owned, fun _ => .refl _⟩
  · refine ⟨fun other unowned parent => ?_, sound.finals, sound.listed, ?_⟩
    · have apart : other ≠ ulid := by
        rintro rfl
        simp at unowned
      exact sound.fresh other (by simpa [Function.update_of_ne apart] using unowned) parent
    · intro issued member outcome told
      exact keeps.holds (sound.told issued member outcome told)

theorem holds_pathExists (holding : Holding task none state) :
    Holds tokenHash task (ExceptT.lift (Program.request (IssueOp.pathExists path)))
      (Ends (Holding task none) fun _ => Holding task none) state := by
  refine Program.safe_exceptLift.mpr (safe_holding holding ?_)
  rintro before reply after holding sound rfl
  exact ⟨⟨.refl _, sound⟩, holding⟩

theorem holds_parentIsDir {parent : String} (holding : Holding task none state) :
    Holds tokenHash task (ExceptT.lift (Program.request (IssueOp.parentIsDir parent)))
      (Ends (Holding task none) fun _ => Holding task none) state := by
  refine Program.safe_exceptLift.mpr (safe_holding holding ?_)
  rintro before reply after holding sound rfl
  exact ⟨⟨.refl _, sound⟩, holding⟩

theorem holds_createNew (stage : Stage task path ulid none Unknown state) :
    Holds tokenHash task (ExceptT.mk (Program.request (IssueOp.createNew path.parent ulid)))
      (Ends (Holding task none) fun _ => Stage task path ulid none Unknown) state := by
  refine safe_request stage steady_unknown ?_
  rintro before reply after stage sound attempted
  have unknown : Unknown ((before.directories path.parent).store (.temporary ulid) "") := trivial
  have made := stage.prepares sound attempted (fun name apart => Directory.leaves_store apart)
    unknown
  refine ⟨made.1, ?_⟩
  rcases reply with error | _
  · exact made.2.holding
  · exact made.2

/-- `PendingSecretFile::prepare` makes a temporary file, or fails before anything is issued. -/
theorem holds_prepare (holding : Holding task none state) :
    Holds tokenHash task (Issuance.prepare path)
      (Ends (Holding task none) fun ulid => Stage task path ulid none Unknown) state := by
  refine holds_bind (holds_pathExists holding) fun present _ holding => ?_
  split
  · exact holding
  refine holds_bind (holds_parentIsDir holding) fun directory _ holding => ?_
  split
  · refine holds_bind (holds_newUlid path holding) fun ulid _ stage => ?_
    exact holds_bind (holds_createNew stage) fun _ _ stage => stage
  · exact holding

/-- A credential is issued, for a task that gets it or does not. -/
theorem Sound.issue (sound : before.Sound tokenHash) {store : CredentialStore}
    (retains : before.store.Retains store)
    (listed : store.Lists issued.node issued.id (tokenHash issued.token))
    (untold : ∀ outcome, issued.status ≠ .told outcome) :
    { before with store, ledger := issued :: before.ledger }.Sound tokenHash where
  fresh := sound.fresh
  finals parent name := by
    refine (sound.finals parent name).imp fun entry complete => complete.mono ?_
    intro other member got
    exact ⟨other, List.mem_cons_of_mem _ member, got, rfl⟩
  listed other member := by
    rcases List.mem_cons.mp member with rfl | earlier
    · exact listed
    · exact retains.lists (sound.listed other earlier)
  told other member outcome told := by
    rcases List.mem_cons.mp member with rfl | earlier
    · exact absurd told (untold outcome)
    · have keeps : Keeps before { before with store, ledger := issued :: before.ledger } :=
        ⟨fun _ _ _ => .refl _, retains⟩
      exact keeps.holds (sound.told other earlier outcome told)

theorem guarantee_issue {store : CredentialStore} (retains : before.store.Retains store)
    (mine : issued.task = task) :
    Guarantee task before { before with store, ledger := issued :: before.ledger } where
  finals _ _ _ := .refl _
  store := retains
  temporaries _ _ _ owned := ⟨owned, fun _ => .refl _⟩
  ledger other foreign := by
    have apart : other ≠ issued := by
      rintro rfl
      exact foreign mine
    simp [apart]

theorem safe_issue (stage : Stage task path ulid none Unknown state) :
    (Program.request (IssueOp.issue node label)).Safe (Step tokenHash task) (Rely task)
      (Guarantee task) (Sound tokenHash)
      (Ends (Stage task path ulid none Unknown) fun issued =>
        Stage task path ulid (some ⟨task, node, issued.id, issued.token, .held⟩) Unknown)
      state := by
  refine safe_request stage steady_unknown ?_
  rintro before reply after stage sound
    (⟨⟨error, rfl⟩, rfl⟩ | ⟨id, token, now, faults, record, store, status, made, rfl, ends⟩)
  · exact ⟨⟨.refl _, sound⟩, stage⟩
  rcases CredentialStore.issueCredential_eq_ok made with ⟨retains, listed⟩
  have untold : ∀ outcome, status ≠ .told outcome := by
    rintro outcome rfl
    simp at ends
  refine ⟨⟨guarantee_issue retains rfl, sound.issue retains listed untold⟩, ?_⟩
  have free := stage.holding
  rcases ends with ⟨rfl, rfl⟩ | ⟨⟨error, rfl⟩, rfl⟩
  · refine ⟨stage.mine, fun other => ?_, trivial⟩
    constructor
    · rintro ⟨member, mine, held⟩
      rcases List.mem_cons.mp member with rfl | earlier
      · rfl
      · cases (free other).mp ⟨earlier, mine, held⟩
    · rintro ⟨⟩
      exact ⟨List.mem_cons_self, rfl, rfl⟩
  · refine ⟨stage.mine, fun other => ?_, trivial⟩
    constructor
    · rintro ⟨member, mine, held⟩
      rcases List.mem_cons.mp member with rfl | earlier
      · cases held
      · exact (free other).mp ⟨earlier, mine, held⟩
    · rintro ⟨⟩

theorem guarantee_store {store : CredentialStore} (retains : before.store.Retains store) :
    Guarantee task before { before with store } where
  finals _ _ _ := .refl _
  store := retains
  temporaries _ _ _ owned := ⟨owned, fun _ => .refl _⟩
  ledger _ _ := Iff.rfl

theorem safe_revoke {id : String} (stage : Stage task path ulid credential Unknown state) :
    (Program.request (IssueOp.revoke node id)).Safe (Step tokenHash task) (Rely task)
      (Guarantee task) (Sound tokenHash) (fun revoked after =>
        Holding task credential after ∧ (revoked = true → after.store.Revoked node id))
      state := by
  refine safe_request stage steady_unknown ?_
  rintro before reply after stage sound
    (⟨rfl, rfl⟩ | ⟨now, faults, record, store, made, rfl⟩)
  · refine ⟨⟨.refl _, sound⟩, stage.holding, fun impossible => ?_⟩
    cases impossible
  · rcases CredentialStore.revokeCredential_eq_ok made with ⟨retains, revoked⟩
    exact ⟨⟨guarantee_store retains, sound.store retains⟩, stage.holding, fun _ => revoked⟩

/-- `publish_credential_or_revoke` tells what has become of the credential. -/
theorem safe_publishCredentialOrRevoke
    (stage : Stage task path ulid (some issued) Unknown state) :
    (Issuance.publishCredentialOrRevoke issued.node path ulid ⟨issued.id, issued.token⟩).Safe
      (Step tokenHash task) (Rely task) (Guarantee task) (Sound tokenHash)
      (fun outcome after => Holding task (some issued) after ∧ outcome.Holds after issued)
      state := by
  refine Program.safe_bind.mpr (Program.Safe.imp (holds_publish stage) ?_)
  rintro (error | _) after stage
  · refine Program.safe_bind.mpr (Program.safe_bind.mpr ?_)
    refine Program.Safe.imp (safe_removeFile stage steady_unknown fun _ _ => trivial) ?_
    intro _ after stage
    refine Program.safe_bind.mpr (Program.Safe.imp (safe_revoke stage) ?_)
    rintro (_ | _) after ⟨holding, revoked⟩
    · exact ⟨holding, rfl⟩
    · exact ⟨holding, rfl, revoked rfl⟩
  · refine Program.safe_bind.mpr (Program.safe_bind.mpr ?_)
    refine Program.Safe.imp (safe_removeFile stage steady_published fun directory durable =>
      (leaves_final directory).certain durable) ?_
    intro _ after stage
    exact ⟨stage.holding, rfl, stage.known⟩

theorem guarantee_settle {status : IssueStatus} :
    Guarantee task before (before.settle (· = task) status) where
  toKeeps := keeps_of_same rfl rfl
  temporaries _ _ _ owned := ⟨owned, fun _ => .refl _⟩
  ledger other foreign := by
    rw [mem_settle]
    constructor
    · rintro (⟨member, _⟩ | ⟨old, _, ended, rfl⟩)
      · exact member
      · exact absurd (by simpa using ended.1) foreign
    · intro member
      exact .inl ⟨member, by simp [foreign]⟩

theorem holding_settle {tasks : ℕ → Bool} {status : IssueStatus} (ended : tasks task = true)
    (settled : status ≠ .held) : Holding task none (before.settle tasks status) := by
  intro entry
  constructor
  · rintro ⟨member, rfl, held⟩
    rcases mem_settle.mp member with ⟨_, going⟩ | ⟨old, _, _, rfl⟩
    · exact absurd ⟨ended, held⟩ going
    · exact absurd held settled
  · rintro ⟨⟩

theorem safe_returned {outcome : IssueOutcome} (holding : Holding task credential state)
    (holds : ∀ issued, credential = some issued → outcome.Holds state issued) :
    (Program.request (IssueOp.returned outcome)).Safe (Step tokenHash task) (Rely task)
      (Guarantee task) (Sound tokenHash) (fun _ => Holding task none) state := by
  rintro before ⟨⟩ after relied sound rfl
  have holding := holding.stable relied
  refine ⟨⟨guarantee_settle, ?_⟩, holding_settle (by simp) (by simp)⟩
  refine sound.settle (by simp) fun entry member mine held told same => ?_
  cases same
  have owned := (holding entry).mp ⟨member, by simpa using mine, held⟩
  exact relied.toKeeps.holds (holds entry owned)

/-- `node credential issue` accounts for the credential that it was given. -/
theorem safe_command (holding : Holding task none state) :
    (Issuance.command node label path).Safe (Step tokenHash task) (Rely task) (Guarantee task)
      (Sound tokenHash) (fun _ => Holding task none) state := by
  refine Program.safe_bind.mpr (Program.Safe.imp (holds_prepare holding) ?_)
  rintro (error | ulid) after prepared
  · exact safe_returned prepared fun _ impossible => by cases impossible
  refine Program.safe_bind.mpr (Program.Safe.imp (safe_issue prepared) ?_)
  rintro (error | issued) after stage
  · refine Program.safe_bind.mpr (Program.safe_bind.mpr ?_)
    refine Program.Safe.imp (safe_removeFile stage steady_unknown fun _ _ => trivial) ?_
    intro _ after stage
    exact safe_returned stage.holding fun _ impossible => by cases impossible
  · refine Program.safe_bind.mpr (Program.Safe.imp (safe_publishCredentialOrRevoke stage) ?_)
    rintro outcome after ⟨holding, holds⟩
    refine safe_returned holding ?_
    rintro _ ⟨⟩
    exact holds

/-- A call of another client. -/
theorem safe_call {call : CredentialCall} (holding : Holding task none state) :
    (Program.request (IssueOp.call call)).Safe (Step tokenHash task) (Rely task) (Guarantee task)
      (Sound tokenHash) (fun _ => Holding task none) state := by
  refine safe_holding holding ?_
  rintro before ⟨⟩ after holding sound ⟨faults, rfl⟩
  have retains : before.store.Retains (call.run faults tokenHash before.store).2 :=
    CredentialStore.retains_run call
  exact ⟨⟨guarantee_store retains, sound.store retains⟩, holding⟩

/-- Tasks are cut off. -/
theorem Sound.cut (sound : before.Sound tokenHash) (tasks : ℕ → Bool) :
    (before.settle tasks .cut).Sound tokenHash := by
  refine sound.settle (by simp) ?_
  rintro issued _ _ _ outcome ⟨⟩

/-- A loss of power damages no file that is synced. -/
theorem Sound.lost (sound : before.Sound tokenHash)
    {directories : String → Directory TokenName String}
    (lost : ∀ parent, (before.directories parent).Lost (directories parent)) :
    { before with directories }.Sound tokenHash where
  fresh ulid undrawn parent := by
    refine (sound.fresh ulid undrawn parent).lost (lost parent) ?_
    rintro _ _ rfl survives
    cases survives
    rfl
  finals parent name := by
    refine (sound.finals parent name).lost (lost parent) ?_
    rintro _ left (rfl | ⟨issued, member, answered, rfl⟩) survives
    · cases survives
      exact .inl rfl
    · cases survives
      exact .inr ⟨issued, member, answered, rfl⟩
  listed := sound.listed
  told issued member outcome told := by
    have held := sound.told issued member outcome told
    cases outcome with
    | published path id => exact ⟨held.1, held.2.lost (lost path.parent)⟩
    | failed error => exact held
    | revoked id error => exact held
    | unconfirmed id error => exact held

theorem sound_init (store : CredentialStore) : (init store).Sound tokenHash where
  fresh ulid _ parent := by simp [init, Directory.empty, Directory.Certain, Directory.Shows]
  finals parent name := by
    simp [init, Directory.empty, Directory.Certain, Directory.Shows, Complete]
  listed := by simp [init]
  told := by simp [init]

end Command

end IssueState

/-! ## The runs -/

namespace IssuePool

open IssueState

variable {tokenHash : String → String} {store : CredentialStore} {pool after : IssuePool}

theorem Runs.secure (ran : pool.Runs tokenHash store) :
    pool.Secure (Step tokenHash) Rely Guarantee (Sound tokenHash)
      fun task => Holding task none := by
  induction ran with
  | start =>
      refine ⟨sound_init store, fun task issued => ?_⟩
      simp [init]
  | move _ moved secure =>
      refine secure.move (fun _ _ => .refl _) (fun _ _ _ _ first second => first.trans second)
        (fun _ _ _ holding relied => holding.stable relied) ?_ ?_ moved
      · intro actor task before after apart _ guaranteed
        refine guaranteed.mono ?_
        rintro _ rfl
        exact Ne.symm apart
      · rintro task program state (⟨node, label, path, rfl⟩ | ⟨call, rfl⟩) _ holding
        · exact safe_command holding
        · exact safe_call holding
  | @stop pool _ task secure =>
      refine ⟨secure.valid.cut (· = task), fun other => ?_⟩
      by_cases same : other = task
      · have free : Holding other none (pool.state.settle (· = task) .cut) :=
          holding_settle (by simpa using same) (by simp)
        simp only [same, Function.update_self] at free ⊢
        exact free
      · simp only [Function.update_of_ne same]
        refine (secure.safe other).stable (fun _ _ _ first second => first.trans second)
          (fun _ _ _ holding relied => holding.stable relied) (guarantee_settle.mono ?_)
        rintro _ rfl
        exact same
  | @powerLoss pool _ _ lost secure =>
      refine ⟨(secure.valid.cut fun _ => true).lost lost, fun task => ?_⟩
      have free : Holding task none (pool.state.settle (fun _ => true) .cut) :=
        holding_settle rfl (by simp)
      exact free

end IssuePool

/-! ## What the runs owe -/

namespace IssuePool

open IssueState

/-- What is known of a credential that the server has issued for a command. -/
inductive Accounted (pool : IssuePool) (issued : Issued) : Prop where
  -- nobody was told of it
  | lost (status : issued.status = .lost)
  | held (status : issued.status = .held) (running : pool.tasks issued.task ≠ .pure ())
  | cut (status : issued.status = .cut)
  | published {path : TokenPath} (status : issued.status = .told (.published path issued.id))
      (durable : (pool.state.directories path.parent).Durable (.final path.name) issued.line)
  | revoked {error : String} (status : issued.status = .told (.revoked issued.id error))
      (revoked : pool.state.store.Revoked issued.node issued.id)
  -- the message names the credential to revoke
  | unconfirmed {error : String} (status : issued.status = .told (.unconfirmed issued.id error))

/-- The run so far, and its next step. -/
structure IssuesSafely (tokenHash : String → String) (pool : IssuePool) : Prop where
  accounted : ∀ issued ∈ pool.state.ledger, pool.Accounted issued
  -- a token is of use until its credential is revoked
  valid : ∀ issued ∈ pool.state.ledger, pool.state.store.Revoked issued.node issued.id ∨
    pool.state.store.authenticateCredential (tokenHash issued.token) =
      some (issued.node, issued.id)
  complete : ∀ parent name file,
    (pool.state.directories parent).entries (.final name) = some file →
      file.synced = true ∧ ∃ issued ∈ pool.state.ledger, issued.status ≠ .lost ∧
        file.content = issued.line
  kept : ∀ after, Pool.Move (Step tokenHash) (fun _ => Starts) pool after →
    ∀ parent name file, (pool.state.directories parent).entries (.final name) = some file →
      (after.state.directories parent).entries (.final name) = some file

end IssuePool

open IssueState in
/--
A credential that a command was given is in its token file for good, or revoked, or named
in the message, unless the command was cut off; a token file is complete from the first and
never replaced.
-/
theorem issued_credentials_are_accounted {tokenHash : String → String} {store : CredentialStore}
    {pool : IssuePool} (ran : pool.Runs tokenHash store) : pool.IssuesSafely tokenHash where
  accounted issued member := by
    have told := ran.secure.valid.told issued member
    cases status : issued.status with
    | lost => exact .lost status
    | held =>
        refine .held status fun ended => ?_
        have holding := ran.secure.safe issued.task
        rw [ended] at holding
        cases (holding issued).mp ⟨member, rfl, status⟩
    | cut => exact .cut status
    | told outcome =>
        have holds := told outcome status
        cases outcome with
        | published path id =>
            rcases holds with ⟨rfl, durable⟩
            exact .published status durable
        | failed error => cases holds
        | revoked id error =>
            rcases holds with ⟨rfl, revoked⟩
            exact .revoked status revoked
        | unconfirmed id error =>
            cases holds
            exact .unconfirmed status
  valid issued member := by
    by_cases revoked : pool.state.store.Revoked issued.node issued.id
    · exact .inl revoked
    · exact .inr ((ran.secure.valid.listed issued member).authenticates revoked)
  complete parent name file shown := by
    rcases (ran.secure.valid.finals parent name).now with absent | ⟨issued, member, got, same⟩
    · cases absent.symm.trans shown
    · cases same.symm.trans shown
      exact ⟨rfl, issued, member, got, rfl⟩
  kept after moved parent name file shown := by
    rcases ran.secure.guaranteed (fun _ _ => .refl _) moved with same | ⟨task, guaranteed⟩
    · rw [same]
      exact shown
    · have left := guaranteed.finals parent name (by simp [shown])
      exact left.entries.trans shown

/-! ## A run -/

namespace IssueState

/-- One possible course of events: what is possible succeeds, and the rest fails. -/
def answer (task : ℕ) (before : IssueState) :
    (operation : IssueOp) → Option (operation.Reply × IssueState)
  | .pathExists path =>
      some (((before.directories path.parent).entries (.final path.name)).isSome, before)
  | .parentIsDir _ => some (true, before)
  | .newUlid =>
      if before.drawn (toString task) = none then
        some (toString task,
          { before with drawn := Function.update before.drawn (toString task) (some task) })
      else none
  | .createNew parent ulid =>
      if (before.directories parent).entries (.temporary ulid) = none then
        some (.ok (), before.inDirectory parent
          ((before.directories parent).store (.temporary ulid) ""))
      else some (.error "file exists", before)
  | .issue node label =>
      match before.store.issueCredential Sample.noFault node (toString task) label
          s!"token-{task}" 0 with
      | (.ok _, store) => some (.ok ⟨toString task, s!"token-{task}"⟩,
          { before with
            store, ledger := ⟨task, node, toString task, s!"token-{task}", .held⟩ :: before.ledger })
      | (.error _, _) => some (.error "refused", before)
  | .writeLine parent ulid token => some (.ok (), before.inDirectory parent
      ((before.directories parent).store (.temporary ulid) (token ++ "\n")))
  | .syncFile parent ulid => some (.ok (), before.inDirectory parent
      ((before.directories parent).syncFile (.temporary ulid)))
  | .hardLink parent ulid name =>
      if (before.directories parent).entries (.temporary ulid) ≠ none ∧
          (before.directories parent).entries (.final name) = none then
        some (.ok (), before.inDirectory parent
          ((before.directories parent).link (.temporary ulid) (.final name)))
      else some (.error "file exists", before)
  | .removeFile parent ulid => some (.ok (), before.inDirectory parent
      ((before.directories parent).remove (.temporary ulid)))
  | .syncDirectory parent =>
      some (.ok (), before.inDirectory parent (before.directories parent).sync)
  | .revoke node id =>
      match before.store.revokeCredential Sample.noFault node id 1 with
      | (.ok _, store) => some (true, { before with store })
      | (.error _, _) => some (false, before)
  | .returned outcome => some ((), before.settle (· = task) (.told outcome))
  | .call call => some ((),
      { before with store := (call.run Sample.noFault (fun token => token) before.store).2 })

theorem step_answer (task : ℕ) (before : IssueState) (operation : IssueOp)
    (reply : operation.Reply) (after : IssueState)
    (answered : before.answer task operation = some (reply, after)) :
    Step (fun token => token) task before operation reply after := by
  cases operation with
  | pathExists path | parentIsDir parent =>
      cases answered
      rfl
  | newUlid =>
      rw [answer, Option.ite_none_right_eq_some] at answered
      rcases answered with ⟨undrawn, made⟩
      cases made
      exact ⟨undrawn, rfl⟩
  | createNew parent ulid | hardLink parent ulid name =>
      rw [answer] at answered
      split at answered
      next possible =>
        cases answered
        exact .inl ⟨possible, rfl⟩
      next =>
        cases answered
        exact .inr ⟨⟨_, rfl⟩, rfl⟩
  | issue node label =>
      rw [answer] at answered
      split at answered
      next record store made =>
        cases answered
        exact .inr ⟨_, _, _, _, _, _, _, made, rfl, .inl ⟨rfl, rfl⟩⟩
      next =>
        cases answered
        exact .inl ⟨⟨_, rfl⟩, rfl⟩
  | writeLine parent ulid token =>
      cases answered
      exact ⟨_, fun _ => rfl, .inl ⟨trivial, rfl⟩⟩
  | syncFile parent ulid | removeFile parent ulid | syncDirectory parent =>
      cases answered
      exact .inl ⟨trivial, rfl⟩
  | revoke node id =>
      rw [answer] at answered
      split at answered
      next record store made =>
        cases answered
        exact .inr ⟨_, _, _, _, made, rfl⟩
      next =>
        cases answered
        exact .inl ⟨rfl, rfl⟩
  | returned outcome =>
      cases answered
      rfl
  | call call =>
      cases answered
      exact ⟨_, rfl⟩

end IssueState

namespace Sample

/-- The next operations of a task. -/
def issueRun (task fuel : ℕ) (pool : IssuePool) : IssuePool :=
  (Pool.runTask IssueState.answer task fuel pool).getD pool

theorem runs_issueRun {task fuel : ℕ} {pool : IssuePool}
    (ran : pool.Runs (fun token => token) .empty) :
    (issueRun task fuel pool).Runs (fun token => token) .empty := by
  unfold issueRun
  cases answered : Pool.runTask IssueState.answer task fuel pool with
  | none => exact ran
  | some after =>
      have moves := @Pool.move_runTask _ _ _ _ _ _ (fun _ => IssueState.Starts) _
        IssueState.step_answer _ _ _ _ answered
      clear answered
      induction moves with
      | refl => exact ran
      | tail _ moved ih => exact ih.move moved

/-- A task that does nothing gets a command. -/
def issueStart (task : ℕ) (pool : IssuePool) : IssuePool :=
  ⟨Function.update pool.tasks task (Issuance.command "alpha" none ⟨"secrets", "alpha.token"⟩),
    pool.state⟩

/-- Two commands for one token file: both find that it does not exist. -/
def issuePrepared : IssuePool :=
  issueRun 2 5 (issueStart 2 (issueRun 1 5 (issueStart 1 ⟨fun _ => .pure (), .init .empty⟩)))

/-- The first publishes its token, and the second revokes its credential. -/
def issueContended : IssuePool := issueRun 2 9 (issueRun 1 9 issuePrepared)

theorem runs_issueStart {task : ℕ} {pool : IssuePool}
    (ran : pool.Runs (fun token => token) .empty) (idle : pool.tasks task = .pure ()) :
    (issueStart task pool).Runs (fun token => token) .empty :=
  .move ran (.start idle (.inl ⟨_, _, _, rfl⟩))

theorem runs_issueContended : issueContended.Runs (fun token => token) .empty :=
  runs_issueRun (runs_issueRun (runs_issueRun (runs_issueStart
    (runs_issueRun (runs_issueStart .start rfl)) rfl)))

end Sample

theorem issued_credentials_are_accounted_contended :
    Sample.issueContended.state.ledger.map (·.status) =
        [.told (.revoked "2" "file exists"),
          .told (.published ⟨"secrets", "alpha.token"⟩ "1")] ∧
      Sample.issueContended.IssuesSafely fun token => token :=
  ⟨by decide +kernel, issued_credentials_are_accounted Sample.runs_issueContended⟩

end LzuMirror
