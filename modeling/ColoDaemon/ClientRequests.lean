import ColoDaemon.YankInstances

/-!
# Requests of the clients

The handlers of `client.c`. `Management` is what they read and write: the store of the listener,
the peer and its flags in the main coroutine, the yank instances and the status flags. A handler
makes the text of its reply, parses it and asserts that this gives a result; `none` is the failed
assertion. The requests that talk to qemu are left to the coroutine as a `QemuCall`.
-/

namespace ColoDaemon

structure Management where
  store : Option Json
  peer : Option String
  peerFailed : Bool
  peerYellow : Bool
  yankInstances : Option Json
  primary : Bool
  replication : Bool
  failed : Bool
  peerFailover : Bool
  transitioning : Bool
  primaryWait : Bool

inductive QemuCall
  | queryStatus
  | yank
  | stop
  | cont
  | executeNocheck (line : String)
  deriving DecidableEq, Repr

inductive Handled
  | reply (result : Option ColodQmpResult)
  | call (call : QemuCall)

/-- `%s` prints a `NULL` as the C library does. -/
def printString (s : Option String) : String := s.getD "(null)"

def boolToJson (b : Bool) : String := if b then "true" else "false"

def Management.colodSetPeer (this : Management) (peer : Option String) : Management :=
  { this with peer, peerFailed := false, peerYellow := false }

def Management.colodClearPeer (this : Management) : Management := { this with peer := some "" }

/-- What the main coroutine and its callbacks change: the peer at the end of a failover, and the
flags. -/
inductive MainUpdate
  | failover
  | peerFailed (failed : Bool)
  | peerYellow (yellow : Bool)
  | status (primary replication failed peerFailover transitioning primaryWait : Bool)
  deriving DecidableEq, Repr

def Management.update (this : Management) : MainUpdate → Management
  | .failover => this.colodClearPeer
  | .peerFailed peerFailed => { this with peerFailed }
  | .peerYellow peerYellow => { this with peerYellow }
  | .status primary replication failed peerFailover transitioning primaryWait =>
    { this with primary, replication, failed, peerFailover, transitioning, primaryWait }

variable (lib : JsonGlib)

/-- `qmp_parse_result` of a text of the daemon, and `assert(result)`. -/
def parseReply (reply : String) : Option ColodQmpResult :=
  match qmpParseResult lib reply with
  | .ok result => some result
  | .error _ => none

def replyText (member : String) : String := "\x7b\"return\": " ++ member ++ "\x7d\n"
def errorReplyText (message : String) : String := "\x7b\"error\": \"" ++ message ++ "\"\x7d\n"
def peerReplyText (peer : String) : String :=
  "\x7b\"return\": \x7b\"peer\": \"" ++ peer ++ "\"\x7d\x7d\n"

def createReply (member : String) : Option ColodQmpResult := parseReply lib (replyText member)

def createErrorReply (message : String) : Option ColodQmpResult :=
  parseReply lib (errorReplyText message)

variable (this : Management) (request : ColodQmpResult)

def Management.statusReplyText (this : Management) (failed : Bool) : String :=
  "\x7b\"return\": \x7b\"primary\": " ++ boolToJson this.primary
    ++ ", \"replication\": " ++ boolToJson this.replication
    ++ ", \"failed\": " ++ boolToJson (failed || this.failed)
    ++ ", \"peer-failover\": " ++ boolToJson this.peerFailover
    ++ ", \"peer-failed\": " ++ boolToJson this.peerFailed ++ "\x7d\x7d\n"

/-- The end of `_handle_query_status_co`; `failed` says that the health check failed. -/
def handleQueryStatus (failed : Bool) : Option ColodQmpResult :=
  parseReply lib (this.statusReplyText failed)

def handleQueryStore : Option ColodQmpResult :=
  match this.store with
  | some store => createReply lib (lib.toText store)
  | none => createReply lib "\x7b\x7d"

def handleSetStore : Management × Option ColodQmpResult :=
  match getMemberNode request.members "store" with
  | none => (this, createErrorReply lib "Member 'store' missing")
  | some store => ({ this with store := some store }, createReply lib "\x7b\x7d")

def handleStartMigration : Option ColodQmpResult :=
  if this.primaryWait then createReply lib "\x7b\x7d" else createErrorReply lib "Pending actions"

/-- The four requests that set a command table. -/
def handleSetCommands : Option ColodQmpResult :=
  match getMemberNode request.members "commands" with
  | none => createErrorReply lib "Member 'commands' missing"
  | some commands =>
    if commands.isArray then createReply lib "\x7b\x7d"
    else createErrorReply lib "Member 'commands' must be an array"

def handleSetYankRequest : Management × Option ColodQmpResult :=
  let (yankInstances, answer) := handleSetYank this.yankInstances request.members
  ({ this with yankInstances },
    match answer with
    | .ok member => createReply lib member
    | .error message => createErrorReply lib message)

def handleSetPeer : Management × Option ColodQmpResult :=
  if hasMember request.members "peer" then
    (this.colodSetPeer (getMemberStr request.members "peer"), createReply lib "\x7b\x7d")
  else (this, createErrorReply lib "Member 'peer' missing")

def handleQueryPeer : Option ColodQmpResult :=
  parseReply lib (peerReplyText (printString this.peer))

/-- The values of `exec-colod`. -/
inductive ClientCommand
  | queryStatus
  | queryStore
  | setStore
  | quit
  | autoquit
  | setMigrationStart
  | setMigrationSwitchover
  | startMigration
  | setPrimaryFailover
  | setSecondaryFailover
  | setYank
  | yank
  | stop
  | cont
  | setPeer
  | queryPeer
  | clearPeer
  deriving DecidableEq, Repr

/-- The comparisons of `_colod_client_co`. -/
def clientCommands : List (String × ClientCommand) :=
  [("query-status", .queryStatus), ("query-store", .queryStore), ("set-store", .setStore),
    ("quit", .quit), ("autoquit", .autoquit), ("set-migration-start", .setMigrationStart),
    ("set-migration-switchover", .setMigrationSwitchover), ("start-migration", .startMigration),
    ("set-primary-failover", .setPrimaryFailover),
    ("set-secondary-failover", .setSecondaryFailover), ("set-yank", .setYank), ("yank", .yank),
    ("stop", .stop), ("cont", .cont), ("set-peer", .setPeer), ("query-peer", .queryPeer),
    ("clear-peer", .clearPeer)]

def handleCommand : ClientCommand → Management × Handled
  | .queryStatus => (this, .call .queryStatus)
  | .queryStore => (this, .reply (handleQueryStore lib this))
  | .setStore =>
    let (next, result) := handleSetStore lib this request
    (next, .reply result)
  | .quit | .autoquit => (this, .reply (createReply lib "\x7b\x7d"))
  | .setMigrationStart | .setMigrationSwitchover | .setPrimaryFailover | .setSecondaryFailover =>
    (this, .reply (handleSetCommands lib request))
  | .startMigration => (this, .reply (handleStartMigration lib this))
  | .setYank =>
    let (next, result) := handleSetYankRequest lib this request
    (next, .reply result)
  | .yank => (this, .call .yank)
  | .stop => (this, .call .stop)
  | .cont => (this, .call .cont)
  | .setPeer =>
    let (next, result) := handleSetPeer lib this request
    (next, .reply result)
  | .queryPeer => (this, .reply (handleQueryPeer lib this))
  | .clearPeer => (this.colodClearPeer, .reply (createReply lib "\x7b\x7d"))

/-- The dispatch of `_colod_client_co`. -/
def handleRequest : Management × Handled :=
  if hasMember request.members "exec-colod" then
    match getMemberStr request.members "exec-colod" with
    | none => (this, .reply (createErrorReply lib "Could not get exec-colod member"))
    | some name =>
      match clientCommands.lookup name with
      | some command => handleCommand lib this request command
      | none => (this, .reply (createErrorReply lib "Unknown command"))
  else (this, .call (.executeNocheck request.line))

/-- The parser reads the text as an object. -/
def ReadsObject (text : String) : Prop :=
  ∃ members, lib.fromString text = .value (.object members)

/-- The command of a request to the daemon itself. -/
def execColod : Option ClientCommand :=
  (getMemberStr request.members "exec-colod").bind fun name => clientCommands.lookup name

theorem hasMember_of_getMemberStr {object : Members} {member s : String}
    (h : getMemberStr object member = some s) : hasMember object member = true := by
  unfold getMemberStr at h
  unfold hasMember
  cases hlookup : object.lookup member with
  | none => simp [hlookup] at h
  | some node => rfl

variable {lib this request}

theorem parseReply_isSome_iff {text : String} :
    (parseReply lib text).isSome = true ↔ ReadsObject lib text := by
  unfold parseReply ReadsObject qmpParseResult
  cases hparsed : lib.fromString text with
  | value root => cases root <;> simp
  | _ => simp

theorem handleRequest_command {command : ClientCommand} (h : execColod request = some command) :
    handleRequest lib this request = handleCommand lib this request command := by
  unfold execColod at h
  obtain ⟨name, hname, hcommand⟩ := Option.bind_eq_some_iff.mp h
  unfold handleRequest
  rw [if_pos (hasMember_of_getMemberStr hname), hname]
  simp only [hcommand]

theorem handleRequest_other (h : execColod request = none) :
    (handleRequest lib this request).1 = this := by
  unfold execColod at h
  unfold handleRequest
  split_ifs
  · split
    · rfl
    · rename_i name hname
      rw [hname, Option.bind_some] at h
      rw [h]
  · rfl

/-- Only `set-store` changes the store. -/
theorem handleRequest_store (h : execColod request ≠ some .setStore) :
    (handleRequest lib this request).1.store = this.store := by
  cases hcommand : execColod request with
  | none => rw [handleRequest_other hcommand]
  | some command =>
    rw [handleRequest_command hcommand]
    cases command with
    | setStore => exact absurd hcommand h
    | setPeer =>
      simp only [handleCommand, handleSetPeer]
      split_ifs <;> rfl
    | _ => rfl

/-- Only `set-peer` and `clear-peer` change the peer. -/
theorem handleRequest_peer (hset : execColod request ≠ some .setPeer)
    (hclear : execColod request ≠ some .clearPeer) :
    (handleRequest lib this request).1.peer = this.peer := by
  cases hcommand : execColod request with
  | none => rw [handleRequest_other hcommand]
  | some command =>
    rw [handleRequest_command hcommand]
    cases command with
    | setPeer => exact absurd hcommand hset
    | clearPeer => exact absurd hcommand hclear
    | setStore =>
      simp only [handleCommand, handleSetStore]
      split <;> rfl
    | _ => rfl

end ColoDaemon
