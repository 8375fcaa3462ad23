import LzuMirror.Lib.Fallible
import LzuMirror.Store.Schema

/-!
# Node credentials

`import_legacy_credential`, `issue_credential`, `revoke_credential`,
`authenticate_credential` and `mark_credential_used`, on the tables
`node_credentials` and `nodes`. The unique index on active token hashes and the
foreign key are fields of `CredentialStore`, and the statements are refused when
they would break them.

The writing calls are transactions: `faults` says which of its statements the
database fails, and whatever a failed call has written is rolled back. SHA-256 of
a token is a parameter.
-/

namespace LzuMirror

/-- The columns of `nodes` that a credential call writes. -/
structure RegisteredNode where
  name : String
  registeredAtMs : ℤ
  activeRuns : ℕ
  capabilitiesJson : String
  deriving DecidableEq, Repr

/-- A row of `node_credentials`. -/
structure NodeCredential where
  nodeName : String
  credentialId : String
  tokenHash : String
  createdAtMs : ℤ
  revokedAtMs : Option ℤ
  label : Option String
  lastUsedAtMs : Option ℤ
  deriving DecidableEq, Repr

/-- `PRIMARY KEY(node_name, credential_id)`. -/
def NodeCredential.key (row : NodeCredential) : String × String := (row.nodeName, row.credentialId)

/-- `CredentialRecord`. -/
structure CredentialRecord where
  node : String
  id : String
  label : Option String
  createdAtMs : ℤ
  lastUsedAtMs : Option ℤ
  revokedAtMs : Option ℤ
  deriving DecidableEq, Repr

def NodeCredential.record (row : NodeCredential) : CredentialRecord where
  node := row.nodeName
  id := row.credentialId
  label := row.label
  createdAtMs := row.createdAtMs
  lastUsedAtMs := row.lastUsedAtMs
  revokedAtMs := row.revokedAtMs

/-- `idx_active_token_hash`: an active token hash has one row. -/
def ActiveUnique (credentials : Table NodeCredential.key) : Prop :=
  ∀ row ∈ credentials, ∀ other ∈ credentials, row.revokedAtMs = none → other.revokedAtMs = none →
    row.tokenHash = other.tokenHash → row = other

/-- The two tables with their constraints. -/
structure CredentialStore where
  nodes : Table RegisteredNode.name
  credentials : Table NodeCredential.key
  activeUnique : ActiveUnique credentials
  registered : ∀ row ∈ credentials, ∃ node ∈ nodes, node.name = row.nodeName

namespace CredentialStore

/-- The tables after the migrations. -/
def empty : CredentialStore where
  nodes := .empty
  credentials := .empty
  activeUnique := by
    intro row member
    exact absurd member Table.not_mem_empty
  registered := by
    intro row member
    exact absurd member Table.not_mem_empty

/-- `INSERT INTO nodes … ON CONFLICT(name) DO NOTHING`. -/
def insertNode (store : CredentialStore) (node : RegisteredNode) : CredentialStore :=
  match inserted : store.nodes.insert? node with
  | none => store
  | some nodes =>
      { store with
        nodes
        registered := by
          intro row member
          rcases store.registered row member with ⟨known, knownMem, named⟩
          exact ⟨known, ((Table.insert?_eq_some inserted).2 known).mpr (.inl knownMem), named⟩ }

/-- Whether a token hash is active. -/
def hasActive (store : CredentialStore) (tokenHash : String) : Bool :=
  store.credentials.any fun row => decide (row.tokenHash = tokenHash) && row.revokedAtMs.isNone

/-- `INSERT INTO node_credentials` of an active row. -/
def insertCredential (store : CredentialStore) (nodeName credentialId tokenHash : String)
    (createdAtMs : ℤ) (label : Option String) : Except StoreError CredentialStore :=
  let row : NodeCredential :=
    { nodeName, credentialId, tokenHash, createdAtMs, revokedAtMs := none, label
      lastUsedAtMs := none }
  if free : store.hasActive tokenHash = false then
    if known : ∃ node ∈ store.nodes.rows, node.name = nodeName then
      match inserted : store.credentials.insert? row with
      | none => .error .database
      | some credentials =>
          .ok { store with
            credentials
            activeUnique := by
              have members := (Table.insert?_eq_some inserted).2
              have apart : ∀ other ∈ store.credentials, other.revokedAtMs = none →
                  other.tokenHash ≠ tokenHash := by
                intro other member active same
                have taken := Table.any_eq_false.mp free other member
                simp [same, active] at taken
              intro first firstMem second secondMem firstActive secondActive same
              rcases (members first).mp firstMem with firstOld | rfl
              · rcases (members second).mp secondMem with secondOld | rfl
                · exact store.activeUnique first firstOld second secondOld firstActive secondActive
                    same
                · exact absurd same (apart first firstOld firstActive)
              · rcases (members second).mp secondMem with secondOld | rfl
                · exact absurd same.symm (apart second secondOld secondActive)
                · rfl
            registered := by
              intro other member
              rcases ((Table.insert?_eq_some inserted).2 other).mp member with old | rfl
              · exact store.registered other old
              · exact known }
    else .error .database
  else .error .database

/-- An `UPDATE` of credentials that neither moves a row nor makes one active. -/
structure Update where
  matching : NodeCredential → Bool
  set : NodeCredential → NodeCredential
  keepsKey : ∀ row, (set row).key = row.key
  keepsHash : ∀ row, (set row).tokenHash = row.tokenHash
  keepsRevoked : ∀ row, (set row).revokedAtMs = none → row.revokedAtMs = none
  keepsTime : ∀ row at_, row.revokedAtMs = some at_ → (set row).revokedAtMs = some at_

/-- What an update makes of a row. -/
def Update.rewrite (update : Update) (row : NodeCredential) : NodeCredential :=
  if update.matching row then update.set row else row

theorem Update.rewrite_facts (update : Update) (row : NodeCredential) :
    (update.rewrite row).key = row.key ∧ (update.rewrite row).tokenHash = row.tokenHash ∧
      ((update.rewrite row).revokedAtMs = none → row.revokedAtMs = none) := by
  unfold Update.rewrite
  split
  · exact ⟨update.keepsKey row, update.keepsHash row, update.keepsRevoked row⟩
  · exact ⟨rfl, rfl, id⟩

/-- `UPDATE node_credentials SET … WHERE …`. -/
def update (store : CredentialStore) (update : Update) : CredentialStore :=
  { store with
    credentials := store.credentials.update update.matching update.set update.keepsKey
    activeUnique := by
      intro first firstMem second secondMem firstActive secondActive same
      rcases List.mem_map.mp firstMem with ⟨row, rowMem, rfl⟩
      rcases List.mem_map.mp secondMem with ⟨other, otherMem, rfl⟩
      have rowFacts := update.rewrite_facts row
      have otherFacts := update.rewrite_facts other
      have oneRow : row = other := store.activeUnique row rowMem other otherMem
        (rowFacts.2.2 firstActive) (otherFacts.2.2 secondActive)
        (rowFacts.2.1.symm.trans (same.trans otherFacts.2.1))
      rw [oneRow]
    registered := by
      intro changed member
      rcases List.mem_map.mp member with ⟨row, rowMem, rfl⟩
      rcases store.registered row rowMem with ⟨node, nodeMem, named⟩
      have sameKey := congrArg Prod.fst (update.rewrite_facts row).1
      exact ⟨node, nodeMem, named.trans sameKey.symm⟩ }

/-- `UPDATE … SET revoked_at_ms=COALESCE(revoked_at_ms, now)`. -/
def revocation (node id : String) (now : ℤ) : Update where
  matching row := row.key = (node, id)
  set row := { row with revokedAtMs := row.revokedAtMs.or (some now) }
  keepsKey _ := rfl
  keepsHash _ := rfl
  keepsRevoked row none_ := by
    cases revoked : row.revokedAtMs <;> simp [revoked] at none_ ⊢
  keepsTime row at_ revoked := by simp [revoked]

/-- `UPDATE … SET last_used_at_ms=now` of an active credential at most once a minute. -/
def usage (node id : String) (now : ℤ) : Update where
  matching row := decide (row.key = (node, id)) && row.revokedAtMs.isNone &&
    row.lastUsedAtMs.all fun lastUsed => lastUsed ≤ now - 60000
  set row := { row with lastUsedAtMs := some now }
  keepsKey _ := rfl
  keepsHash _ := rfl
  keepsRevoked _ active := active
  keepsTime _ _ revoked := revoked

end CredentialStore

section Calls

/-- A statement, which the database may fail. -/
def statement {α : Type} (fails : Bool) (result : Except StoreError α) : Except StoreError α :=
  if fails then .error .database else result

/-- A transaction that is dropped without a commit is rolled back. -/
def transact {α : Type} (result : Except StoreError (α × CredentialStore))
    (store : CredentialStore) : Except StoreError α × CredentialStore :=
  match result with
  | .error error => (.error error, store)
  | .ok (reply, after) => (.ok reply, after)

variable (faults : ℕ → Bool)

namespace CredentialStore

/-- `import_legacy_credential`. -/
def importLegacyCredential (node tokenHash : String) (now : ℤ) (store : CredentialStore) :
    Except StoreError Bool × CredentialStore :=
  transact (do
    let store ← statement (faults 0) (.ok (store.insertNode ⟨node, now, 0, "\x7b\x7d"⟩))
    let history ← statement (faults 1)
      (.ok (store.credentials.any fun row => row.nodeName = node))
    if history then
      let store ← statement (faults 2) (.ok store)
      return (false, store)
    else
      let store ← statement (faults 2)
        (store.insertCredential node "bootstrap" tokenHash now (some "legacy-inline"))
      let store ← statement (faults 3) (.ok store)
      return (true, store)) store

/-- `issue_credential`. -/
def issueCredential (node credentialId : String) (label : Option String) (tokenHash : String)
    (now : ℤ) (store : CredentialStore) : Except StoreError CredentialRecord × CredentialStore :=
  transact (do
    let store ← statement (faults 0) (.ok (store.insertNode ⟨node, now, 0, "\x7b\x7d"⟩))
    let store ← statement (faults 1)
      (store.insertCredential node credentialId tokenHash now label)
    let store ← statement (faults 2) (.ok store)
    return ({ node, id := credentialId, label, createdAtMs := now, lastUsedAtMs := none
              revokedAtMs := none }, store)) store

/-- `revoke_credential`. -/
def revokeCredential (node id : String) (now : ℤ) (store : CredentialStore) :
    Except StoreError CredentialRecord × CredentialStore :=
  transact (do
    let existing ← statement (faults 0) (.ok (store.credentials.find? (node, id)))
    match existing with
    | none => .error .credentialNotFound
    | some existing =>
        let store ← statement (faults 1) (.ok (store.update (revocation node id now)))
        let store ← statement (faults 2) (.ok store)
        let revokedAtMs := existing.revokedAtMs.getD now
        return ({ existing.record with revokedAtMs := some revokedAtMs }, store)) store

/-- `mark_credential_used`: a single statement. -/
def markCredentialUsed (node id : String) (now : ℤ) (store : CredentialStore) :
    Except StoreError Bool × CredentialStore :=
  transact (do
    let update := usage node id now
    let used := store.credentials.any update.matching
    let store ← statement (faults 0) (.ok (store.update update))
    return (used, store)) store

/-- `authenticate_credential`, for the hash of the token. -/
def authenticateCredential (store : CredentialStore) (tokenHash : String) :
    Option (String × String) :=
  (store.credentials.rows.find? fun row =>
    decide (row.tokenHash = tokenHash) && row.revokedAtMs.isNone).map NodeCredential.key

end CredentialStore

/-- One call with its arguments. -/
inductive CredentialCall where
  | importLegacy (node token : String) (now : ℤ)
  | issue (node credentialId : String) (label : Option String) (token : String) (now : ℤ)
  | revoke (node id : String) (now : ℤ)
  | markUsed (node id : String) (now : ℤ)

/-- Whether a call fails, and the tables after it. -/
def CredentialCall.run (tokenHash : String → String) (store : CredentialStore) :
    CredentialCall → Except StoreError Unit × CredentialStore
  | .importLegacy node token now =>
      (store.importLegacyCredential faults node (tokenHash token) now).map
        (Except.map fun _ => ()) id
  | .issue node credentialId label token now =>
      (store.issueCredential faults node credentialId label (tokenHash token) now).map
        (Except.map fun _ => ()) id
  | .revoke node id now =>
      (store.revokeCredential faults node id now).map (Except.map fun _ => ()) fun store => store
  | .markUsed node id now =>
      (store.markCredentialUsed faults node id now).map (Except.map fun _ => ()) fun store => store

/-- The tables after a sequence of calls, each with the faults it meets. -/
def CredentialStore.runAll (tokenHash : String → String) (store : CredentialStore)
    (calls : List (CredentialCall × (ℕ → Bool))) : CredentialStore :=
  calls.foldl (fun store (call, faults) => (call.run faults tokenHash store).2) store

end Calls

section Permanence

variable {tokenHash : String → String} {faults : ℕ → Bool} {store before after : CredentialStore}

namespace CredentialStore

/-- Every credential is still there, and a revoked one is revoked since the same time. -/
def Keeps (before after : CredentialStore) : Prop :=
  ∀ row ∈ before.credentials, ∃ other ∈ after.credentials,
    other.key = row.key ∧ ∀ at_, row.revokedAtMs = some at_ → other.revokedAtMs = some at_

theorem Keeps.refl (store : CredentialStore) : store.Keeps store := fun row member =>
  ⟨row, member, rfl, fun _ revoked => revoked⟩

theorem Keeps.trans {middle : CredentialStore} (first : before.Keeps middle)
    (second : middle.Keeps after) : before.Keeps after := by
  intro row member
  rcases first row member with ⟨other, otherMem, key, revoked⟩
  rcases second other otherMem with ⟨last, lastMem, lastKey, lastRevoked⟩
  exact ⟨last, lastMem, lastKey.trans key, fun at_ time => lastRevoked at_ (revoked at_ time)⟩

@[simp]
theorem insertNode_credentials (store : CredentialStore) (node : RegisteredNode) :
    (store.insertNode node).credentials = store.credentials := by
  unfold insertNode
  split <;> rfl

theorem keeps_insertCredential {node id hash : String} {now : ℤ} {label : Option String}
    (inserted : store.insertCredential node id hash now label = .ok after) :
    store.Keeps after := by
  unfold insertCredential at inserted
  simp only at inserted
  split at inserted
  · split at inserted
    · split at inserted
      next => cases inserted
      next credentials rowInserted =>
        cases inserted
        intro row member
        have kept := ((Table.insert?_eq_some rowInserted).2 row).mpr (.inl member)
        exact ⟨row, kept, rfl, fun _ revoked => revoked⟩
    · cases inserted
  · cases inserted

theorem keeps_update (update : Update) : store.Keeps (store.update update) := by
  intro row member
  refine ⟨update.rewrite row, List.mem_map_of_mem member, (update.rewrite_facts row).1, ?_⟩
  intro at_ revoked
  unfold Update.rewrite
  split
  · exact update.keepsTime row at_ revoked
  · exact revoked

theorem statement_eq_ok {α : Type} {fails : Bool} {result : Except StoreError α} {value : α} :
    statement fails result = .ok value ↔ fails = false ∧ result = .ok value := by
  cases fails <;> simp [statement]

theorem transact_keeps {α : Type} {result : Except StoreError (α × CredentialStore)}
    (keeps : ∀ reply after, result = .ok (reply, after) → store.Keeps after) :
    store.Keeps (transact result store).2 := by
  cases result with
  | error error => exact .refl store
  | ok committed => exact keeps committed.1 committed.2 rfl

theorem transact_error {α : Type} {result : Except StoreError (α × CredentialStore)}
    {error : StoreError} (failed : (transact result store).1 = .error error) :
    (transact result store).2 = store := by
  cases result with
  | error error => rfl
  | ok committed => cases failed

theorem keeps_of_eq (same : after.credentials = store.credentials) : store.Keeps after := by
  intro row member
  rw [← same] at member
  exact ⟨row, member, rfl, fun _ revoked => revoked⟩

theorem keeps_importLegacyCredential (node hash : String) (now : ℤ) :
    store.Keeps (store.importLegacyCredential faults node hash now).2 := by
  apply transact_keeps
  intro reply after committed
  simp only [bind_eq_ok, statement_eq_ok, Except.ok.injEq] at committed
  rcases committed with ⟨_, ⟨_, rfl⟩, history, ⟨_, rfl⟩, committed⟩
  split at committed
  · simp only [bind_eq_ok, statement_eq_ok, Except.ok.injEq, pure_eq_ok, Prod.mk.injEq]
      at committed
    rcases committed with ⟨_, ⟨_, rfl⟩, _, rfl⟩
    exact keeps_of_eq (insertNode_credentials store _)
  · simp only [bind_eq_ok, statement_eq_ok, Except.ok.injEq, pure_eq_ok, Prod.mk.injEq]
      at committed
    rcases committed with ⟨_, ⟨_, inserted⟩, _, ⟨_, rfl⟩, _, rfl⟩
    apply (keeps_of_eq (insertNode_credentials store _)).trans
    exact keeps_insertCredential inserted

theorem keeps_issueCredential (node id : String) (label : Option String) (hash : String)
    (now : ℤ) : store.Keeps (store.issueCredential faults node id label hash now).2 := by
  apply transact_keeps
  intro reply after committed
  simp only [bind_eq_ok, statement_eq_ok, Except.ok.injEq, pure_eq_ok, Prod.mk.injEq]
    at committed
  rcases committed with ⟨_, ⟨_, rfl⟩, _, ⟨_, inserted⟩, _, ⟨_, rfl⟩, _, rfl⟩
  apply (keeps_of_eq (insertNode_credentials store _)).trans
  exact keeps_insertCredential inserted

theorem keeps_revokeCredential (node id : String) (now : ℤ) :
    store.Keeps (store.revokeCredential faults node id now).2 := by
  apply transact_keeps
  intro reply after committed
  simp only [bind_eq_ok, statement_eq_ok, Except.ok.injEq] at committed
  rcases committed with ⟨existing, ⟨_, rfl⟩, committed⟩
  split at committed
  · cases committed
  · simp only [bind_eq_ok, statement_eq_ok, Except.ok.injEq, pure_eq_ok, Prod.mk.injEq]
      at committed
    rcases committed with ⟨_, ⟨_, rfl⟩, _, ⟨_, rfl⟩, _, rfl⟩
    exact keeps_update _

theorem keeps_markCredentialUsed (node id : String) (now : ℤ) :
    store.Keeps (store.markCredentialUsed faults node id now).2 := by
  apply transact_keeps
  intro reply after committed
  simp only [bind_eq_ok, statement_eq_ok, Except.ok.injEq, pure_eq_ok, Prod.mk.injEq]
    at committed
  rcases committed with ⟨_, ⟨_, rfl⟩, _, rfl⟩
  exact keeps_update _

/-- One call keeps the revocations, whether it fails or not. -/
theorem keeps_run (call : CredentialCall) : store.Keeps (call.run faults tokenHash store).2 := by
  cases call with
  | importLegacy node token now => exact keeps_importLegacyCredential node (tokenHash token) now
  | issue node id label token now => exact keeps_issueCredential node id label _ now
  | revoke node id now => exact keeps_revokeCredential node id now
  | markUsed node id now => exact keeps_markCredentialUsed node id now

/-- So does every sequence of calls. -/
theorem keeps_runAll (calls : List (CredentialCall × (ℕ → Bool))) :
    store.Keeps (store.runAll tokenHash calls) := by
  induction calls generalizing store with
  | nil => exact .refl store
  | cons call rest ih => exact (keeps_run call.1).trans ih

end CredentialStore

end Permanence

section Failures

variable {tokenHash : String → String} {faults : ℕ → Bool} {store : CredentialStore}

namespace CredentialStore

theorem map_eq_error {α : Type} {reply : Except StoreError α} {error : StoreError}
    (failed : Except.map (fun _ => ()) reply = .error error) : reply = .error error := by
  cases reply with
  | error cause => simpa [Except.map] using failed
  | ok value => cases failed

/-- A failing call changes neither table. -/
theorem run_error {call : CredentialCall} {error : StoreError}
    (failed : (call.run faults tokenHash store).1 = .error error) :
    (call.run faults tokenHash store).2 = store := by
  cases call <;> exact transact_error (map_eq_error failed)

/-- A node with a credential gets none from an import. -/
theorem importLegacyCredential_of_history {node hash : String} {now : ℤ} {row : NodeCredential}
    (member : row ∈ store.credentials) (named : row.nodeName = node) :
    (store.importLegacyCredential faults node hash now).2.credentials = store.credentials := by
  have history : store.credentials.any (fun row => row.nodeName = node) = true := by
    simp only [Table.any_eq_true, decide_eq_true_eq]
    exact ⟨row, member, named⟩
  unfold importLegacyCredential statement
  cases faults 0 <;> cases faults 1 <;> cases faults 2 <;>
    simp [transact, bind, Except.bind, pure, Except.pure, history]

end CredentialStore

end Failures

section Authentication

variable {store : CredentialStore}

namespace CredentialStore

/-- Two active rows of one token are the same row. -/
theorem active_unique {hash : String} {row other : NodeCredential}
    (member : row ∈ store.credentials) (otherMember : other ∈ store.credentials)
    (active : row.tokenHash = hash ∧ row.revokedAtMs = none)
    (otherActive : other.tokenHash = hash ∧ other.revokedAtMs = none) : row = other :=
  store.activeUnique row member other otherMember active.2 otherActive.2
    (active.1.trans otherActive.1.symm)

/-- A token authenticates its active row, and nothing else. -/
theorem authenticateCredential_eq_some {hash : String} {key : String × String} :
    store.authenticateCredential hash = some key ↔
      ∃ row ∈ store.credentials, row.key = key ∧ row.tokenHash = hash ∧
        row.revokedAtMs = none := by
  unfold authenticateCredential
  rw [Option.map_eq_some_iff]
  constructor
  · rintro ⟨row, found, keyed⟩
    have active := List.find?_some found
    simp only [Bool.and_eq_true, decide_eq_true_eq, Option.isNone_iff_eq_none] at active
    exact ⟨row, List.mem_of_find?_eq_some found, keyed, active⟩
  · rintro ⟨row, member, keyed, active⟩
    cases found : store.credentials.rows.find? fun row =>
        decide (row.tokenHash = hash) && row.revokedAtMs.isNone with
    | none =>
        have inactive := List.find?_eq_none.mp found row member
        simp [active] at inactive
    | some first =>
        have firstActive := List.find?_some found
        simp only [Bool.and_eq_true, decide_eq_true_eq, Option.isNone_iff_eq_none] at firstActive
        have sameRow := active_unique (List.mem_of_find?_eq_some found) member firstActive active
        exact ⟨first, rfl, sameRow ▸ keyed⟩

end CredentialStore

end Authentication

section Permanent

variable (tokenHash : String → String)

/-- What `after`, reached from `before`, owes to the revocations of `before`. -/
structure RevocationPermanent (before after : CredentialStore) : Prop where
  keepsRevoked : ∀ row ∈ before.credentials, ∀ at_, row.revokedAtMs = some at_ →
    ∃ kept, after.credentials.find? row.key = some kept ∧ kept.revokedAtMs = some at_
  authenticates : ∀ token node id,
    after.authenticateCredential (tokenHash token) = some (node, id) ↔
      ∃ row, after.credentials.find? (node, id) = some row ∧
        row.tokenHash = tokenHash token ∧ row.revokedAtMs = none
  oneActive : ∀ token, ∀ row ∈ after.credentials, ∀ other ∈ after.credentials,
    row.tokenHash = tokenHash token ∧ row.revokedAtMs = none →
    other.tokenHash = tokenHash token ∧ other.revokedAtMs = none → row = other
  importsNone : ∀ faults node token now, (∃ row ∈ after.credentials, row.nodeName = node) →
    (after.importLegacyCredential faults node (tokenHash token) now).2.credentials =
      after.credentials
  failureIsAtomic : ∀ (call : CredentialCall) faults error,
    (call.run faults tokenHash after).1 = .error error → (call.run faults tokenHash after).2 = after

/-- Over any sequence of calls, revocation is permanent. -/
theorem revocation_permanent (store : CredentialStore)
    (calls : List (CredentialCall × (ℕ → Bool))) :
    RevocationPermanent tokenHash store (store.runAll tokenHash calls) where
  keepsRevoked row member at_ revoked := by
    rcases CredentialStore.keeps_runAll calls row member with ⟨kept, keptMem, sameKey, keptRevoked⟩
    exact ⟨kept, sameKey ▸ Table.find?_of_mem keptMem, keptRevoked at_ revoked⟩
  authenticates token node id := by
    rw [CredentialStore.authenticateCredential_eq_some]
    simp only [Table.find?_eq_some_iff, and_assoc]
  oneActive token row member other otherMember active otherActive :=
    CredentialStore.active_unique member otherMember active otherActive
  importsNone faults node token now history := by
    rcases history with ⟨row, member, named⟩
    exact CredentialStore.importLegacyCredential_of_history member named
  failureIsAtomic call faults error failed := CredentialStore.run_error failed

namespace Sample

def noFault : ℕ → Bool := fun _ => false

/-- A bootstrap token that has been imported and revoked. -/
def revokedBootstrap : CredentialStore :=
  CredentialStore.empty.runAll id
    [(.importLegacy "alpha" "secret" 10, noFault), (.revoke "alpha" "bootstrap" 20, noFault)]

/-- A restart, a second revocation, the token under another id, and that id once more. -/
def laterCalls : List (CredentialCall × (ℕ → Bool)) :=
  [(.importLegacy "alpha" "secret" 30, noFault), (.revoke "alpha" "bootstrap" 40, noFault),
    (.issue "beta" "second" none "secret" 50, noFault),
    (.issue "gamma" "third" none "secret" 60, noFault)]

/-- The bootstrap row stays revoked at 20, and the failed issue has left no node behind. -/
theorem revokedBootstrap_permanent :
    RevocationPermanent id revokedBootstrap (revokedBootstrap.runAll id laterCalls) ∧
      ((revokedBootstrap.runAll id laterCalls).credentials.rows.map fun row =>
        (row.key, row.revokedAtMs)) =
          [(("alpha", "bootstrap"), some 20), (("beta", "second"), none)] ∧
      (revokedBootstrap.runAll id laterCalls).nodes.rows.map RegisteredNode.name =
        ["alpha", "beta"] :=
  ⟨revocation_permanent id revokedBootstrap laterCalls, by decide +kernel, by decide +kernel⟩

end Sample

end Permanent

end LzuMirror
