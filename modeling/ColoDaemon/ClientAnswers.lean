import ColoDaemon.JsonText
import ColoDaemon.QmpBalance

/-!
# Answers to the clients

Every request is answered with one reply. The reply is one line of JSON as long as the strings that
it splices may stand between two quotes as they are: `handed` is what a call returns to the client,
and `Fits` says that its error, the peer and the store splice.
-/

namespace ColoDaemon.QmpFrames
open Runs

/-- One line of JSON, an object with a result or an error. -/
def WellFormed (text : String) : Prop :=
  JsonText.OneLine text.toList ∧ JsonText.isObject text.toList = true ∧
    (JsonText.HasMember "return".toList text.toList ∨
      JsonText.HasMember "error".toList text.toList)

/-- The library reads the objects that are JSON. -/
def ReadsJson (lib : JsonGlib) : Prop :=
  ∀ text : String, JsonText.isObject text.toList = true → ReadsObject lib text

variable {lib : JsonGlib}

section Texts

theorem toList_spliced (head s tail : String) :
    (head ++ s ++ tail).toList = head.toList ++ s.toList ++ tail.toList := by
  simp only [String.toList_append]

/-- A text that starts with the member it needs. -/
theorem wellFormed_iff {text : String} {head tail name rest : List Char}
    (htext : text.toList = head ++ tail)
    (hhead : head = '\x7b' :: '\x22' :: (name ++ '\x22' :: rest))
    (hname : name = "return".toList ∨ name = "error".toList) :
    WellFormed text ↔
      JsonText.OneLine text.toList ∧ JsonText.isJson text.toList = true := by
  have hmember : JsonText.HasMember name text.toList := by
    refine ⟨['\x7b'], rest ++ tail, .firstName, ?_, rfl, .inl rfl⟩
    simp [htext, hhead]
  have hobject : JsonText.isObject text.toList = JsonText.isJson text.toList := by
    simp [JsonText.isObject, htext, hhead]
  rw [WellFormed, hobject]
  constructor
  · rintro ⟨hline, hjson, -⟩
    exact ⟨hline, hjson⟩
  · rintro ⟨hline, hjson⟩
    refine ⟨hline, hjson, ?_⟩
    rcases hname with rfl | rfl
    · exact .inl hmember
    · exact .inr hmember

theorem wellFormed_error {message : String} :
    WellFormed (errorReplyText message) ↔ JsonText.Splices 1 message.toList := by
  have htext : (errorReplyText message).toList =
      "\x7b\"error\": \"".toList ++ message.toList ++ JsonText.closing 1 :=
    toList_spliced _ _ _
  have hhead : "\x7b\"error\": \"".toList =
      '\x7b' :: '\x22' :: ("error".toList ++ '\x22' :: [':', ' ', '\x22']) := by decide
  rw [wellFormed_iff (htext.trans (List.append_assoc ..)) hhead (.inr rfl), htext]
  exact JsonText.spliced_iff (by decide) (by decide)

theorem wellFormed_peer {peer : String} :
    WellFormed (peerReplyText peer) ↔ JsonText.Splices 2 peer.toList := by
  have htext : (peerReplyText peer).toList =
      "\x7b\"return\": \x7b\"peer\": \"".toList ++ peer.toList ++ JsonText.closing 2 :=
    toList_spliced _ _ _
  have hhead : "\x7b\"return\": \x7b\"peer\": \"".toList =
      '\x7b' :: '\x22' :: ("return".toList ++ '\x22' :: ": \x7b\"peer\": \"".toList) := by decide
  rw [wellFormed_iff (htext.trans (List.append_assoc ..)) hhead (.inl rfl), htext]
  exact JsonText.spliced_iff (by decide) (by decide)

theorem wellFormed_return {member : String} :
    WellFormed (replyText member) ↔ JsonText.SplicesValue member.toList := by
  have htext : (replyText member).toList =
      "\x7b\"return\": ".toList ++ member.toList ++ ['\x7d', '\n'] :=
    toList_spliced _ _ _
  have hhead : "\x7b\"return\": ".toList =
      '\x7b' :: '\x22' :: ("return".toList ++ '\x22' :: [':', ' ']) := by decide
  rw [wellFormed_iff (htext.trans (List.append_assoc ..)) hhead (.inl rfl), htext]
  exact JsonText.spliced_value_iff (by decide) (by decide)

theorem wellFormed_empty : WellFormed (replyText "\x7b\x7d") :=
  wellFormed_return.mpr (by decide)

/-- An error reply with a text of the daemon. -/
theorem wellFormed_plain {message : String} (h : message.toList.all JsonText.plain = true) :
    WellFormed (errorReplyText message) :=
  wellFormed_error.mpr (JsonText.splices_plain (List.all_eq_true.mp h))

/-- The text starts a reply to `query-status` on one line, and the reader is inside its object. -/
structure Inside (mode : JsonText.Mode) (text : List Char) : Prop where
  line : '\n' ∉ text
  reads : run JsonText.step ⟨[], .value⟩ text = some ⟨[.object, .object], mode⟩
  head : ∃ rest, text = '\x7b' :: '\x22' :: ("return".toList ++ '\x22' :: rest)

theorem Inside.append {mode mode' : JsonText.Mode} {text piece : List Char}
    (h : Inside mode text) (hline : '\n' ∉ piece)
    (hpiece : run JsonText.step ⟨[.object, .object], mode⟩ piece =
      some ⟨[.object, .object], mode'⟩) : Inside mode' (text ++ piece) where
  line := by simp [h.line, hline]
  reads := by rw [JsonText.run_append, h.reads, Option.bind_some, hpiece]
  head := by
    obtain ⟨rest, rfl⟩ := h.head
    exact ⟨rest ++ piece, by simp only [List.cons_append, List.append_assoc]⟩

/-- The next flag. -/
theorem Inside.flag {text : List Char} (h : Inside .ended text) (name : String) (b : Bool)
    (hline : '\n' ∉ name.toList)
    (hname : run JsonText.step ⟨[.object, .object], .ended⟩ name.toList =
      some ⟨[.object, .object], .value⟩) :
    Inside .ended (text ++ name.toList ++ (boolToJson b).toList) := by
  have hvalue := h.append hline hname
  cases b
  · exact hvalue.append (by decide) (by decide)
  · exact hvalue.append (by decide) (by decide)

theorem Inside.wellFormed {text : String} {body : List Char} (h : Inside .ended body)
    (htext : text.toList = body ++ ['\x7d', '\x7d', '\n']) : WellFormed text := by
  obtain ⟨rest, hhead⟩ := h.head
  rw [wellFormed_iff htext hhead (.inl rfl), htext]
  constructor
  · exact ⟨body ++ ['\x7d', '\x7d'], by simp, by simp [h.line]⟩
  · rw [JsonText.isJson, JsonText.run_append, h.reads, Option.bind_some]
    decide

theorem wellFormed_status (management : Management) (failed : Bool) :
    WellFormed (management.statusReplyText failed) := by
  have hprimary : Inside .ended ("\x7b\"return\": \x7b\"primary\": ".toList ++
      (boolToJson management.primary).toList) := by
    have htext : "\x7b\"return\": \x7b\"primary\": ".toList = '\x7b' :: '\x22' ::
        ("return".toList ++ '\x22' :: ": \x7b\"primary\": ".toList) := by decide
    have hhead : Inside .value "\x7b\"return\": \x7b\"primary\": ".toList :=
      ⟨by decide, by decide, _, htext⟩
    cases management.primary
    · exact hhead.append (by decide) (by decide)
    · exact hhead.append (by decide) (by decide)
  have hreplication := hprimary.flag ", \"replication\": " management.replication
    (by decide) (by decide)
  have hfailed := hreplication.flag ", \"failed\": " (failed || management.failed)
    (by decide) (by decide)
  have hfailover := hfailed.flag ", \"peer-failover\": " management.peerFailover
    (by decide) (by decide)
  have hbody := hfailover.flag ", \"peer-failed\": " management.peerFailed
    (by decide) (by decide)
  have hend : "\x7d\x7d\n".toList = ['\x7d', '\x7d', '\n'] := by decide
  refine hbody.wellFormed (Eq.trans ?_ (congrArg _ hend))
  unfold Management.statusReplyText
  repeat rw [String.toList_append]

end Texts

/-- The call that the client loop waits for. -/
def Frame.call : Frame → Option QemuCall
  | .clientWaiting _ call => some call
  | _ => none

/-- What `colod_execute_co` or another function that the client loop calls returns to it. -/
def handed (lib : JsonGlib) (co : Co) (fn : Fn) (entry : Ledger) :
    List Activation → Reaction → Option (QemuCall × Ret)
  | a :: k, .ok (this, .ret r) =>
    match a.frame.call with
    | some call => some (call, r)
    | none =>
      handed lib co a.frame.fn a.entry k (react lib (this.exit co fn entry r) co a.frame r)
  | _, _ => none

/-- The message of the error splices; a reply of qemu is passed on as it is. -/
def AnswerFits (call : QemuCall) (r : Ret) : Prop :=
  call = .queryStatus ∨
    match r with
    | .line result => WellFormed result.line
    | .failed (some error) => JsonText.Splices 1 error.message.toList
    | _ => True

/-- The peer and the text of the store splice where they are queried. -/
def RequestFits (lib : JsonGlib) (this : Management) (request : ColodQmpResult) : Prop :=
  (execColod request = some .queryPeer → JsonText.Splices 2 (printString this.peer).toList) ∧
    ∀ value, execColod request = some .queryStore → this.store = some value →
      JsonText.SplicesValue (lib.toText value).toList

/-- The client loop reads the request in this step. -/
def System.Reads (s : System) (lib : JsonGlib) (co : Co) (label : Label)
    (request : ColodQmpResult) : Prop :=
  ∃ waited text thread stoppedQemu, label = .io co waited (.line text) ∧
    s.thread co = some thread ∧ thread.point = .clientReading stoppedQemu ∧
    s.qmp.clientsQuit = false ∧ qmpParseResult lib text = .ok request

/-- A call of the client loop returns in this step. -/
def System.Hands (s : System) (lib : JsonGlib) (co : Co) (label : Label) (call : QemuCall)
    (r : Ret) : Prop :=
  ∃ waited outcome thread reaction, label = .io co waited outcome ∧
    s.thread co = some thread ∧ reactIo lib s.qmp co thread.point outcome = some reaction ∧
    handed lib co thread.point.fn thread.entry
      (if waited then suspended thread.below else thread.below) reaction = some (call, r)

structure Fits (lib : JsonGlib) (s : System) (label : Label) : Prop where
  request : ∀ co request, s.Reads lib co label request → RequestFits lib s.qmp.management request
  answer : ∀ co call r, s.Hands lib co label call r → AnswerFits call r

/-- No assertion about a reply has failed, and the replies that are being written are right. -/
structure RepliesRight (s : System) : Prop where
  assertions : s.aborted ≠ some .replyAssertion
  replies : ∀ co thread stoppedQemu result, s.thread co = some thread →
    thread.point = .clientWriting stoppedQemu result → WellFormed result.line

variable {this : ColodQmpState} {co : Co} {c : ChannelName} {fn : Fn} {entry : Ledger}
  {k : List Activation} {r : Ret} {stoppedQemu : Bool} {s t : System}

section Replies

def TurnRight : Turn → Prop
  | .error abort => abort ≠ .replyAssertion
  | .ok (_, none) => True
  | .ok (_, some thread) => ∀ stoppedQemu result,
    thread.point = .clientWriting stoppedQemu result → WellFormed result.line

theorem writeReply_some {result : ColodQmpResult} :
    TurnRight (drive lib co fn entry k (writeReply this stoppedQemu (some result))) ↔
      WellFormed result.line := by
  rw [writeReply, drive_park]
  constructor
  · intro h
    exact h stoppedQemu result rfl
  · rintro h _ _ ⟨⟩
    exact h

theorem writeReply_right (hlib : ReadsJson lib) {text : String} :
    TurnRight (drive lib co fn entry k (writeReply this stoppedQemu (parseReply lib text))) ↔
      WellFormed text := by
  cases hreply : parseReply lib text with
  | none =>
    have hnot : ¬ WellFormed text := by
      intro h
      have hsome := parseReply_isSome_iff.mpr (hlib text h.2.1)
      rw [hreply] at hsome
      cases hsome
    simpa [writeReply, drive, TurnRight] using hnot
  | some result =>
    have hline : result.line = text := by
      unfold parseReply qmpParseResult at hreply
      cases hparsed : lib.fromString text with
      | value root => cases root <;> simp_all; exact hreply ▸ rfl
      | _ => simp [hparsed] at hreply
    rw [writeReply_some, hline]

/-- A reply that is right whatever the state. -/
def Fine (lib : JsonGlib) (result : Option ColodQmpResult) : Prop :=
  ∃ text, result = parseReply lib text ∧ WellFormed text

theorem fine_empty : Fine lib (createReply lib "\x7b\x7d") := ⟨_, rfl, wellFormed_empty⟩

theorem fine_error {message : String} (h : message.toList.all JsonText.plain = true) :
    Fine lib (createErrorReply lib message) :=
  ⟨_, rfl, wellFormed_plain h⟩

section Requests
variable {management next : Management} {request : ColodQmpResult}
  {result : Option ColodQmpResult}

theorem fine_setStore : Fine lib (handleSetStore lib management request).2 := by
  unfold handleSetStore
  split
  · exact fine_error (by decide)
  · exact fine_empty

theorem fine_startMigration : Fine lib (handleStartMigration lib management) := by
  unfold handleStartMigration
  split_ifs
  · exact fine_empty
  · exact fine_error (by decide)

theorem fine_setCommands : Fine lib (handleSetCommands lib request) := by
  unfold handleSetCommands
  split
  · exact fine_error (by decide)
  · split_ifs
    · exact fine_empty
    · exact fine_error (by decide)

theorem fine_setYank : Fine lib (handleSetYankRequest lib management request).2 := by
  unfold handleSetYankRequest handleSetYank
  cases getMemberNode request.members "instances" with
  | none => exact fine_error (by decide)
  | some instances =>
    cases hinstances : instances.isArray with
    | false =>
      simp only [hinstances, Bool.false_eq_true, if_false]
      exact fine_error (by decide)
    | true =>
      simp only [hinstances, if_true]
      exact fine_empty

theorem fine_setPeer : Fine lib (handleSetPeer lib management request).2 := by
  unfold handleSetPeer
  split_ifs
  · exact fine_empty
  · exact fine_error (by decide)

/-- The replies of the daemon itself, apart from the two that splice a string of a client. -/
theorem fine_of_command {command : ClientCommand} (hpeer : command ≠ .queryPeer)
    (hstore : command ≠ .queryStore)
    (h : handleCommand lib management request command = (next, .reply result)) :
    Fine lib result := by
  cases command with
  | queryPeer => exact absurd rfl hpeer
  | queryStore => exact absurd rfl hstore
  | queryStatus | yank | stop | cont => cases h
  | quit | autoquit | clearPeer =>
    cases h
    exact fine_empty
  | setStore =>
    cases h
    exact fine_setStore
  | startMigration =>
    cases h
    exact fine_startMigration
  | setMigrationStart | setMigrationSwitchover | setPrimaryFailover | setSecondaryFailover =>
    cases h
    exact fine_setCommands
  | setYank =>
    cases h
    exact fine_setYank
  | setPeer =>
    cases h
    exact fine_setPeer

theorem fine_of_other (hcommand : execColod request = none)
    (h : handleRequest lib management request = (next, .reply result)) : Fine lib result := by
  unfold execColod at hcommand
  unfold handleRequest at h
  split_ifs at h
  · split at h
    · cases h
      exact fine_error (by decide)
    · rename_i name hname
      rw [hname, Option.bind_some] at hcommand
      rw [hcommand] at h
      cases h
      exact fine_error (by decide)
  · cases h

/-- The reply to a request that the daemon answers itself. -/
theorem handleRequest_right
    (h : handleRequest lib management request = (next, .reply result)) :
    ∃ text, result = parseReply lib text ∧
      (WellFormed text ↔ RequestFits lib management request) := by
  have hother : Fine lib result → execColod request ≠ some .queryPeer →
      execColod request ≠ some .queryStore → ∃ text, result = parseReply lib text ∧
        (WellFormed text ↔ RequestFits lib management request) := by
    rintro ⟨text, hresult, htext⟩ hpeer hstore
    refine ⟨text, hresult, iff_of_true htext ⟨?_, ?_⟩⟩
    · exact fun hcommand => absurd hcommand hpeer
    · exact fun _ hcommand => absurd hcommand hstore
  cases hcommand : execColod request with
  | none => exact hother (fine_of_other hcommand h) (by simp [hcommand]) (by simp [hcommand])
  | some command =>
    rw [handleRequest_command hcommand] at h
    cases command with
    | queryPeer =>
      cases h
      exact ⟨_, rfl, by simp [RequestFits, hcommand, wellFormed_peer]⟩
    | queryStore =>
      cases h
      cases hstore : management.store with
      | none =>
        refine ⟨replyText "\x7b\x7d", by simp only [handleQueryStore, hstore, createReply], ?_⟩
        exact iff_of_true wellFormed_empty (by simp [RequestFits, hcommand, hstore])
      | some value =>
        refine ⟨replyText (lib.toText value),
          by simp only [handleQueryStore, hstore, createReply], ?_⟩
        simp [RequestFits, hcommand, hstore, wellFormed_return]
    | _ =>
      exact hother (fine_of_command (by simp) (by simp) h) (by simp [hcommand])
        (by simp [hcommand])

theorem fits_of_call {call : QemuCall}
    (h : handleRequest lib management request = (next, .call call)) :
    RequestFits lib management request := by
  have hreplies : ∀ command, execColod request = some command →
      command ≠ .queryPeer ∧ command ≠ .queryStore := by
    intro command hcommand
    rw [handleRequest_command hcommand] at h
    constructor
    · rintro rfl
      cases h
    · rintro rfl
      cases h
  exact ⟨fun hcommand => absurd rfl (hreplies _ hcommand).1,
    fun _ hcommand => absurd rfl (hreplies _ hcommand).2⟩

end Requests

theorem clientReturned_right (hlib : ReadsJson lib) {call : QemuCall} :
    TurnRight (drive lib co fn entry k (clientReturned lib this stoppedQemu call r)) ↔
      AnswerFits call r := by
  have hstatus : ∀ failed, TurnRight (drive lib co fn entry k
      (writeReply this stoppedQemu (handleQueryStatus lib this.management failed))) :=
    fun failed => (writeReply_right hlib).mpr (wellFormed_status _ failed)
  have herror : ∀ error : GError, TurnRight (drive lib co fn entry k
      (writeReply this stoppedQemu (createErrorReply lib error.message))) ↔
        JsonText.Splices 1 error.message.toList :=
    fun error => (writeReply_right hlib).trans wellFormed_error
  have hdone : TurnRight (drive lib co fn entry k
      (writeReply this stoppedQemu (createReply lib "\x7b\x7d"))) :=
    (writeReply_right hlib).mpr wellFormed_empty
  cases r with
  | line result =>
    cases call with
    | queryStatus => exact iff_of_true (hstatus false) (.inl rfl)
    | _ => simpa [clientReturned, AnswerFits] using writeReply_some
  | done =>
    cases call with
    | queryStatus => exact iff_of_true (hstatus false) (.inl rfl)
    | _ => exact iff_of_true hdone (.inr trivial)
  | failed error =>
    cases error with
    | none =>
      refine iff_of_true ?_ (.inr trivial)
      cases call <;> simp [clientReturned, TurnRight]
    | some error =>
      cases call with
      | queryStatus => exact iff_of_true (hstatus true) (.inl rfl)
      | _ => simpa [clientReturned, AnswerFits] using herror error

/-- The reaction makes no reply and is not suspended in the client loop. -/
def Quiet : Reaction → Prop
  | .error abort => abort ≠ .replyAssertion
  | .ok (_, next) => ∀ point, next = .park point → point.fn ≠ .client

theorem quiet_unlocked {next : ColodQmpState → Reaction} (h : ∀ this, Quiet (next this)) :
    Quiet (unlocked this co c next) := by
  unfold unlocked ColodQmpState.colodUnlockCo
  split
  · rename_i heq
    split_ifs at heq
    cases heq
    simp [Quiet]
  · exact h _

theorem quiet_endWithError (error : Option GError) : Quiet (endWithError this co error) := by
  cases error <;> simp [endWithError, Quiet]

theorem quiet_passError (error : Option GError) : Quiet (passError this error) := by
  cases error <;> simp [passError, Quiet]

theorem quiet_errorClient (error : Option GError) :
    Quiet (errorClient this stoppedQemu error) := by
  cases error <;> cases stoppedQemu <;> simp [errorClient, Quiet]

theorem react_quiet {frame : Frame} (h : frame.call = none) :
    Quiet (react lib this co frame r) := by
  cases frame with
  | clientWaiting => cases h
  | yanking c skipEvents =>
    cases r with
    | failed error => exact quiet_passError error
    | _ => simp [react, Quiet]
  | again => simp [react, Quiet]
  | read c yank command =>
    refine quiet_unlocked fun this => ?_
    rcases r with result | - | (- | error) <;> simp [Quiet]
  | queryYank =>
    simp only [react, queryYankReturned]
    split
    · split_ifs
      · simp [Quiet]
      · split <;> simp [Quiet]
    · simp [Quiet]
  | yankCommand command =>
    simp only [react, yankReturned]
    split
    · split_ifs <;> simp [Quiet]
    · simp [Quiet]
  | greeting c =>
    cases r with
    | failed error => exact quiet_unlocked fun this => quiet_endWithError error
    | _ => simp [react, greetingReturned, Quiet]
  | capabilities c =>
    refine quiet_unlocked fun this => ?_
    cases r with
    | failed error => exact quiet_endWithError error
    | line result =>
      simp only
      split_ifs
      · exact quiet_endWithError _
      · simp [Quiet]
    | done => simp [Quiet]
  | eventRead c =>
    refine quiet_unlocked fun this => ?_
    cases r with
    | failed error => exact quiet_endWithError error
    | line result =>
      simp only
      split_ifs <;> simp [Quiet, Point.fn]
    | done => simp [Quiet, Point.fn]
  | executeNocheck command =>
    simp only [react, executeNocheckReturned]
    split
    · exact quiet_passError _
    · split <;> simp [Quiet]
  | colodExecute command =>
    simp only [react, colodExecuteReturned]
    split
    · split_ifs <;> simp [Quiet]
    · simp [Quiet]
  | colodYank =>
    simp only [react, colodYankReturned]
    split
    · exact quiet_passError _
    · simp [Quiet]
  | healthStatus =>
    cases r with
    | failed error => exact quiet_passError error
    | _ => simp [react, healthStatusReturned, Quiet]
  | healthColoStatus qemuStatus =>
    cases r with
    | failed error => exact quiet_passError error
    | _ => simp [react, healthColoStatusReturned, Quiet]
  | closing localErrp =>
    simp only [react, closingReturned]
    split
    · split <;> simp [Quiet]
    · simp [Quiet]

/-- The turn makes no reply, and the coroutine is not suspended in the client loop but above the
frames `k`. -/
def Outside (k : List Activation) : Turn → Prop
  | .error abort => abort ≠ .replyAssertion
  | .ok (_, none) => True
  | .ok (_, some thread) => thread.point.fn ≠ .client ∧ ∀ a ∈ k, a ∈ thread.below

theorem Outside.right {turn : Turn} (h : Outside k turn) : TurnRight turn := by
  match turn with
  | .error abort => exact h
  | .ok (_, none) => trivial
  | .ok (_, some thread) =>
    intro stoppedQemu result hpoint
    exact absurd (congrArg Point.fn hpoint) h.1

theorem Outside.mono {k' : List Activation} {turn : Turn} (h : Outside k turn)
    (hk : ∀ a ∈ k', a ∈ k) : Outside k' turn := by
  match turn with
  | .error abort => exact h
  | .ok (_, none) => trivial
  | .ok (_, some thread) => exact ⟨h.1, fun a ha => h.2 a (hk a ha)⟩

theorem startExecute_outside {yank : Bool} {command : String} :
    Outside k (startExecute this co c yank command k) := by
  unfold startExecute ColodQmpState.colodLockCo
  split
  · rename_i heq
    split_ifs at heq
    all_goals cases heq
    all_goals simp [Outside]
  · simp [Outside, Point.fn]
  · simp [Outside, Point.fn]

theorem startCallee_outside {callee : Callee} : Outside k (startCallee this co k callee) := by
  cases callee with
  | readLine c yank skipEvents => exact ⟨by simp [Point.fn], fun _ => id⟩
  | execute c yank command => exact startExecute_outside
  | yank => exact startExecute_outside.mono fun _ ha => .tail _ ha
  | executeNocheck command => exact startExecute_outside.mono fun _ ha => .tail _ ha
  | colodExecute command => exact startExecute_outside.mono fun _ ha => .tail _ (.tail _ ha)
  | colodYank => exact startExecute_outside.mono fun _ ha => .tail _ (.tail _ ha)
  | checkHealth =>
    exact startExecute_outside.mono fun _ ha => .tail _ (.tail _ (.tail _ ha))

theorem startCallee_suspended (h : Shared this) (co : Co) (k : List Activation)
    (callee : Callee) : ∃ next thread, startCallee this co k callee = .ok (next, some thread) ∧
      thread.point.fn ≠ .client ∧ ∀ a ∈ k, a ∈ thread.below := by
  obtain ⟨next, thread, hstarts⟩ := startCallee_ok h co k callee
  have houtside : Outside k (startCallee this co k callee) := startCallee_outside
  rw [hstarts] at houtside
  exact ⟨next, thread, hstarts, houtside⟩

/-- The functions go on until they are suspended, or the client loop goes on with what its call
returns. -/
theorem drive_handed (lib : JsonGlib) (co : Co) (fn : Fn) (entry : Ledger) (k : List Activation)
    {reaction : Reaction} (h : Quiet reaction) :
    match handed lib co fn entry k reaction with
    | none => Outside [] (drive lib co fn entry k reaction)
    | some (call, r) => ∃ this stoppedQemu entry' k', drive lib co fn entry k reaction =
      drive lib co .client entry' k' (clientReturned lib this stoppedQemu call r) := by
  induction k generalizing fn entry reaction with
  | nil =>
    match reaction with
    | .error abort => exact h
    | .ok (this, .ret r) => trivial
    | .ok (this, .finished) => trivial
    | .ok (this, .park point) => exact ⟨h point rfl, by simp⟩
    | .ok (this, .call frame) => exact startCallee_outside.mono (by simp)
  | cons a k ih =>
    match reaction with
    | .error abort => exact h
    | .ok (this, .finished) => trivial
    | .ok (this, .park point) => exact ⟨h point rfl, by simp⟩
    | .ok (this, .call frame) => exact startCallee_outside.mono (by simp)
    | .ok (this, .ret r) =>
      rw [handed]
      cases hcall : a.frame.call with
      | none => exact ih _ _ (react_quiet hcall)
      | some call =>
        cases hframe : a.frame with
        | clientWaiting stoppedQemu call' =>
          rw [hframe] at hcall
          cases hcall
          refine ⟨this.exit co fn entry r, stoppedQemu, a.entry, k, ?_⟩
          rw [drive, hframe]
          rfl
        | _ =>
          rw [hframe] at hcall
          cases hcall

/-- The turn is right exactly if what it hands to the client loop fits. -/
theorem drive_right (hlib : ReadsJson lib) {reaction : Reaction} (h : Quiet reaction) :
    TurnRight (drive lib co fn entry k reaction) ↔
      ∀ call r, handed lib co fn entry k reaction = some (call, r) → AnswerFits call r := by
  have hdrive := drive_handed lib co fn entry k h
  cases hhanded : handed lib co fn entry k reaction with
  | none =>
    rw [hhanded] at hdrive
    exact iff_of_true hdrive.right (by simp)
  | some answer =>
    obtain ⟨call, r⟩ := answer
    rw [hhanded] at hdrive
    obtain ⟨this, stoppedQemu, entry', k', heq⟩ := hdrive
    rw [heq, clientReturned_right hlib]
    simp

end Replies

section Steps
variable {thread : Thread} {reaction : Reaction} {waited : Bool} {outcome : Outcome}

theorem right_settle {turn : Turn} (h : RepliesRight s) :
    RepliesRight (s.settle co turn) ↔ TurnRight turn := by
  match turn with
  | .error abort =>
    constructor
    · intro hright habort
      exact hright.assertions (congrArg some habort)
    · intro hright
      exact ⟨fun haborted => hright (Option.some.inj haborted), h.replies⟩
  | .ok (qmp, none) =>
    refine iff_of_true ⟨h.assertions, ?_⟩ trivial
    intro u thread stoppedQemu result hthread
    by_cases hu : u = co
    · subst hu
      simp [System.settle] at hthread
    · refine h.replies u thread stoppedQemu result ?_
      simpa [System.settle, hu] using hthread
  | .ok (qmp, some thread) =>
    constructor
    · intro hright stoppedQemu result
      exact hright.replies co thread stoppedQemu result (by simp [System.settle])
    · intro hright
      refine ⟨h.assertions, ?_⟩
      intro u thread' stoppedQemu result hthread
      by_cases hu : u = co
      · subst hu
        obtain rfl : thread = thread' := by simpa [System.settle] using hthread
        exact hright stoppedQemu result
      · refine h.replies u thread' stoppedQemu result ?_
        simpa [System.settle, hu] using hthread

/-- What a reaction hands to the client loop is what a function returns. -/
theorem handed_eq_none (h : ∀ this r, reaction ≠ .ok (this, .ret r)) :
    handed lib co fn entry k reaction = none := by
  cases k with
  | nil => rfl
  | cons a k =>
    match reaction with
    | .ok (this, .ret r) => exact absurd rfl (h this r)
    | .error abort => rfl
    | .ok (this, .finished) => rfl
    | .ok (this, .park point) => rfl
    | .ok (this, .call frame) => rfl

theorem reactResume_quiet {point : Point} (h : reactResume this co point = some reaction) :
    Quiet reaction ∧ ∀ this r, reaction ≠ .ok (this, .ret r) := by
  have hlocked : ∀ c wait next, wait.fn ≠ .client → (∀ r, next ≠ .ret r) →
      (∀ point, next = .park point → point.fn ≠ .client) →
      Quiet (locked this co c wait next) ∧ ∀ this' r, locked this co c wait next ≠
        .ok (this', .ret r) := by
    intro c wait next hwait hret hpark
    unfold locked ColodQmpState.colodLockCo
    split
    · rename_i heq
      split_ifs at heq
      all_goals cases heq
      all_goals simp [Quiet]
    · refine ⟨hpark, fun this' r heq => hret r ?_⟩
      cases heq
      rfl
    · exact ⟨by simpa [Quiet] using hwait, by simp⟩
  cases point with
  | idle c yank skipEvents =>
    cases h
    simp [Quiet, Point.fn]
  | lock c yank command =>
    cases h
    exact hlocked _ _ _ (by simp [Point.fn]) (by simp) (by simp [Point.fn])
  | start c =>
    cases h
    simp [Quiet]
  | watching c | waitHolder c =>
    simp only [reactResume] at h
    split_ifs at h
    · cases h
      simp [Quiet, Point.fn]
    · cases h
      exact hlocked _ _ _ (by simp [Point.fn]) (by simp) (by simp)
  | _ => cases h

theorem fits_io (hthread : s.thread co = some thread)
    (hreaction : reactIo lib s.qmp co thread.point outcome = some reaction) :
    Fits lib s (.io co waited outcome) ↔
      (∀ text stoppedQemu request, outcome = .line text →
        thread.point = .clientReading stoppedQemu → s.qmp.clientsQuit = false →
        qmpParseResult lib text = .ok request → RequestFits lib s.qmp.management request) ∧
      ∀ call r, handed lib co thread.point.fn thread.entry
        (if waited then suspended thread.below else thread.below) reaction = some (call, r) →
        AnswerFits call r := by
  constructor
  · intro h
    constructor
    · rintro text stoppedQemu request rfl hpoint hquit hparse
      exact h.request co request
        ⟨waited, text, thread, stoppedQemu, rfl, hthread, hpoint, hquit, hparse⟩
    · intro call r hhanded
      exact h.answer co call r ⟨waited, outcome, thread, reaction, rfl, hthread, hreaction, hhanded⟩
  · rintro ⟨hrequest, hanswer⟩
    constructor
    · rintro u request ⟨waited', text, thread', stoppedQemu, hlabel, hthread', hpoint, hquit, hparse⟩
      cases hlabel
      obtain rfl : thread = thread' := Option.some.inj (hthread.symm.trans hthread')
      exact hrequest text stoppedQemu request rfl hpoint hquit hparse
    · rintro u call r ⟨waited', outcome', thread', reaction', hlabel, hthread', hreaction', hhanded⟩
      cases hlabel
      obtain rfl : thread = thread' := Option.some.inj (hthread.symm.trans hthread')
      obtain rfl : reaction = reaction' := Option.some.inj (hreaction.symm.trans hreaction')
      exact hanswer call r hhanded

theorem fits_of_ne_io {label : Label} (h : ∀ co waited outcome, label ≠ .io co waited outcome) :
    Fits lib s label where
  request := by
    rintro co request ⟨waited, text, -, -, hlabel, -⟩
    exact absurd hlabel (h _ _ _)
  answer := by
    rintro co call r ⟨waited, outcome, -, -, hlabel, -⟩
    exact absurd hlabel (h _ _ _)

/-- Outside the client loop a reaction makes no reply. -/
theorem reactIo_quiet {point : Point} (hreaction : reactIo lib this co point outcome = some reaction)
    (hpoint : point.fn ≠ .client) : Quiet reaction := by
  unfold reactIo at hreaction
  split at hreaction
  · cases hreaction
    unfold lineRead
    split
    · simp [Quiet]
    · split_ifs <;> simp [Quiet, Point.fn]
  · cases hreaction
    unfold lineFailed
    split_ifs <;> simp [Quiet]
  · cases hreaction
    simp [Quiet]
  · cases hreaction
    exact quiet_unlocked fun this => by simp [Quiet]
  · exact absurd rfl hpoint
  · exact absurd rfl hpoint
  · exact absurd rfl hpoint
  · exact absurd rfl hpoint
  · cases hreaction

theorem right_of_quiet (hlib : ReadsJson lib) (h : Quiet reaction)
    (hret : ∀ this r, reaction ≠ .ok (this, .ret r)) :
    TurnRight (drive lib co fn entry k reaction) :=
  (drive_right hlib h).mpr (by simp [handed_eq_none hret])

theorem errorClient_ne_ret (error : Option GError) :
    ∀ this' r, errorClient this stoppedQemu error ≠ .ok (this', .ret r) := by
  cases error <;> cases stoppedQemu <;> simp [errorClient]

theorem right_errorClient (hlib : ReadsJson lib) (error : Option GError) :
    TurnRight (drive lib co fn entry k (errorClient this stoppedQemu error)) :=
  right_of_quiet hlib (quiet_errorClient error) (errorClient_ne_ret error)

theorem clientRead_request {text : String} {request : ColodQmpResult}
    (hquit : this.clientsQuit = false) (hparse : qmpParseResult lib text = .ok request) :
    clientRead lib this stoppedQemu text =
      match handleRequest lib this.management request with
      | (management, .reply result) => writeReply { this with management } stoppedQemu result
      | (management, .call call) =>
        .ok ({ this with management }, .call (.clientWaiting stoppedQemu call)) := by
  rw [clientRead, if_neg (by simp [hquit])]
  cases hparsed : qmpParseResult lib text with
  | error error =>
    rw [hparse] at hparsed
    cases hparsed
  | ok request' =>
    obtain rfl : request = request' := Except.ok.inj (hparse.symm.trans hparsed)
    rfl

/-- The client loop with a line that is a request. -/
theorem clientRead_right (hlib : ReadsJson lib) {text : String} {request : ColodQmpResult}
    (hquit : this.clientsQuit = false) (hparse : qmpParseResult lib text = .ok request) :
    TurnRight (drive lib co fn entry k (clientRead lib this stoppedQemu text)) ↔
      RequestFits lib this.management request := by
  rw [clientRead_request hquit hparse]
  cases hrequest : handleRequest lib this.management request with
  | mk management handled =>
    cases handled with
    | reply result =>
      obtain ⟨reply, rfl, hfits⟩ := handleRequest_right hrequest
      exact (writeReply_right hlib).trans hfits
    | call call =>
      refine iff_of_true ?_ (fits_of_call hrequest)
      rw [drive_call]
      exact startCallee_outside.right

theorem clientRead_ne_ret {text : String} :
    ∀ this' r, clientRead lib this stoppedQemu text ≠ .ok (this', .ret r) := by
  intro this' r
  unfold clientRead
  split_ifs
  · simp
  · split
    · exact errorClient_ne_ret _ _ _
    · split
      · rename_i result _
        cases result <;> simp [writeReply]
      · simp

/-- The client loop returns nothing. -/
theorem reactIo_ne_ret {point : Point}
    (hreaction : reactIo lib this co point outcome = some reaction)
    (hpoint : point.fn = .client) : ∀ this r, reaction ≠ .ok (this, .ret r) := by
  unfold reactIo at hreaction
  split at hreaction
  · cases hpoint
  · cases hpoint
  · cases hpoint
  · cases hpoint
  · cases hreaction
    exact clientRead_ne_ret
  · cases hreaction
    split_ifs
    · simp
    · exact errorClient_ne_ret _
  · cases hreaction
    split_ifs <;> simp
  · cases hreaction
    exact errorClient_ne_ret _
  · cases hreaction

/-- A reaction of the client loop is right exactly if the request fits. -/
theorem reactIo_right (hlib : ReadsJson lib) {point : Point}
    (hreaction : reactIo lib this co point outcome = some reaction)
    (hpoint : point.fn = .client) :
    TurnRight (drive lib co fn entry k reaction) ↔
      ∀ text stoppedQemu request, outcome = .line text → point = .clientReading stoppedQemu →
        this.clientsQuit = false → qmpParseResult lib text = .ok request →
        RequestFits lib this.management request := by
  unfold reactIo at hreaction
  split at hreaction
  · cases hpoint
  · cases hpoint
  · cases hpoint
  · cases hpoint
  · rename_i stoppedQemu text
    cases hreaction
    cases hquit : this.clientsQuit with
    | true => simp [clientRead, hquit, TurnRight]
    | false =>
      cases hparse : qmpParseResult lib text with
      | error error =>
        refine iff_of_true ?_ ?_
        · simp only [clientRead, hquit, Bool.false_eq_true, if_false, hparse]
          exact right_errorClient hlib error
        · rintro _ _ request ⟨⟩ - - hrequest
          rw [hparse] at hrequest
          cases hrequest
      | ok request =>
        rw [clientRead_right hlib hquit hparse]
        constructor
        · rintro hfits _ _ request' ⟨⟩ - - hrequest
          rw [hparse] at hrequest
          cases hrequest
          exact hfits
        · intro h
          exact h text stoppedQemu request rfl rfl rfl hparse
  · cases hreaction
    split_ifs
    · simp [TurnRight]
    · exact iff_of_true (right_errorClient hlib _) (by simp)
  · cases hreaction
    split_ifs <;> simp [TurnRight]
  · cases hreaction
    exact iff_of_true (right_errorClient hlib _) (by simp)
  · cases hreaction

/-- A step keeps the replies right exactly if it fits. -/
theorem right_step (hlib : ReadsJson lib) {label : Label}
    (hstep : s.step lib label = some t) (h : RepliesRight s) :
    RepliesRight t ↔ Fits lib s label := by
  unfold System.step at hstep
  split_ifs at hstep
  cases label with
  | accept i =>
    simp only at hstep
    split_ifs at hstep
    cases hstep
    refine iff_of_true ((right_settle h).mpr ?_) (fits_of_ne_io (by simp))
    simp [TurnRight]
  | call i call =>
    simp only at hstep
    split_ifs at hstep
    cases hstep
    exact iff_of_true ((right_settle h).mpr startCallee_outside.right) (fits_of_ne_io (by simp))
  | resume co =>
    obtain ⟨thread, hthread, hstep⟩ := Option.bind_eq_some_iff.mp hstep
    obtain ⟨reaction, hreaction, hstep⟩ := Option.bind_eq_some_iff.mp hstep
    cases hstep
    obtain ⟨hquiet, hret⟩ := reactResume_quiet hreaction
    exact iff_of_true ((right_settle h).mpr (right_of_quiet hlib hquiet hret))
      (fits_of_ne_io (by simp))
  | io co waited outcome =>
    simp only at hstep
    split_ifs at hstep
    obtain ⟨thread, hthread, hstep⟩ := Option.bind_eq_some_iff.mp hstep
    obtain ⟨reaction, hreaction, hstep⟩ := Option.bind_eq_some_iff.mp hstep
    cases hstep
    rw [right_settle h, fits_io hthread hreaction]
    by_cases hpoint : thread.point.fn = .client
    · rw [reactIo_right hlib hreaction hpoint, handed_eq_none (reactIo_ne_ret hreaction hpoint)]
      simp
    · rw [drive_right hlib (reactIo_quiet hreaction hpoint)]
      refine (and_iff_right ?_).symm
      rintro text stoppedQemu request - heq
      exact absurd (congrArg Point.fn heq) hpoint
  | main update =>
    cases hstep
    exact iff_of_true ⟨h.assertions, h.replies⟩ (fits_of_ne_io (by simp))
  | quitClients =>
    cases hstep
    exact iff_of_true ⟨h.assertions, h.replies⟩ (fits_of_ne_io (by simp))

end Steps

section Once
variable {thread : Thread} {reaction : Reaction} {i : ℕ}

/-- The client loop waits for a request. -/
def System.reading (s : System) (i : ℕ) : Bool :=
  match s.thread (.client i) with
  | some ⟨.clientReading _, _, _⟩ => true
  | _ => false

def System.writing (s : System) (i : ℕ) : Bool :=
  match s.thread (.client i) with
  | some ⟨.clientWriting _ _, _, _⟩ => true
  | _ => false

/-- How many requests wait for their reply. -/
def System.pending (s : System) (i : ℕ) : ℕ := if s.reading i then 0 else 1

/-- The client loop reads a request. -/
def requests (lib : JsonGlib) (i : ℕ) (s : System) : Label → Bool
  | .io (.client j) _ (.line text) =>
    i = j && s.reading i && !s.qmp.clientsQuit && (qmpParseResult lib text).isOk
  | _ => false

/-- The client loop has written a reply. -/
def writes (i : ℕ) (s : System) : Label → Bool
  | .io (.client j) _ .written => i = j && s.writing i
  | _ => false

/-- The daemon runs, and the client loop has not come to its end. -/
def System.Serves (s : System) (i : ℕ) : Prop :=
  s.aborted = none ∧ ∃ thread, s.thread (.client i) = some thread ∧
    ∀ a ∈ thread.below, ∀ localErrp, a.frame ≠ .closing localErrp

theorem serves_settle {turn : Turn} (h : (s.settle (.client i) turn).Serves i) :
    ∃ qmp thread, turn = .ok (qmp, some thread) ∧
      (∀ a ∈ thread.below, ∀ localErrp, a.frame ≠ .closing localErrp) ∧
      (s.settle (.client i) turn).thread (.client i) = some thread := by
  obtain ⟨haborted, thread, hthread, hserves⟩ := h
  match turn with
  | .error abort => cases haborted
  | .ok (qmp, none) => simp [System.settle] at hthread
  | .ok (qmp, some thread') =>
    obtain rfl : thread' = thread := by simpa [System.settle] using hthread
    exact ⟨qmp, thread', rfl, hserves, hthread⟩

theorem clientReturned_cases (lib : JsonGlib) (this : ColodQmpState) (stoppedQemu : Bool)
    (call : QemuCall) (r : Ret) :
    (r = .failed none ∧ clientReturned lib this stoppedQemu call r = .error .missingError) ∨
      (r ≠ .failed none ∧ ∃ stoppedQemu' result,
        clientReturned lib this stoppedQemu call r = writeReply this stoppedQemu' result) := by
  rcases r with result | - | (- | error)
  · cases call with
    | queryStatus => exact .inr ⟨by simp, _, _, rfl⟩
    | _ => exact .inr ⟨by simp, _, some result, rfl⟩
  · cases call <;> exact .inr ⟨by simp, _, _, rfl⟩
  · cases call <;> exact .inl ⟨rfl, rfl⟩
  · cases call <;> exact .inr ⟨by simp, _, _, rfl⟩

theorem drive_writeReply {result : Option ColodQmpResult} {qmp : ColodQmpState}
    (h : drive lib co fn entry k (writeReply this stoppedQemu result) = .ok (qmp, some thread)) :
    ∃ reply, result = some reply ∧ thread.point = .clientWriting stoppedQemu reply := by
  cases result with
  | none => simp [writeReply] at h
  | some reply =>
    rw [writeReply, drive_park] at h
    cases h
    exact ⟨reply, rfl, rfl⟩

theorem drive_not_reading (hquiet : Quiet reaction) {qmp : ColodQmpState}
    (h : drive lib co fn entry k reaction = .ok (qmp, some thread)) :
    ∀ stoppedQemu, thread.point ≠ .clientReading stoppedQemu := by
  have hdrive := drive_handed lib co fn entry k hquiet
  intro stoppedQemu hpoint
  cases hhanded : handed lib co fn entry k reaction with
  | none =>
    rw [hhanded, h] at hdrive
    exact hdrive.1 (congrArg Point.fn hpoint)
  | some answer =>
    obtain ⟨call, r⟩ := answer
    rw [hhanded, h] at hdrive
    obtain ⟨this, stoppedQemu', entry', k', heq⟩ := hdrive
    rcases clientReturned_cases lib this stoppedQemu' call r with ⟨-, hmissing⟩ | ⟨-, st, result, hwrite⟩
    · rw [hmissing, drive_error] at heq
      cases heq
    · rw [hwrite] at heq
      obtain ⟨reply, -, hwriting⟩ := drive_writeReply heq.symm
      rw [hwriting] at hpoint
      cases hpoint

/-- After an error of its connection the client loop is at its end. -/
theorem drive_errorClient {error : Option GError} {qmp : ColodQmpState}
    (h : drive lib co fn entry k (errorClient this stoppedQemu error) = .ok (qmp, some thread)) :
    ∃ a ∈ thread.below, ∃ localErrp, a.frame = .closing localErrp := by
  cases error with
  | none => simp [errorClient] at h
  | some error =>
    cases stoppedQemu with
    | false => simp [errorClient] at h
    | true =>
      obtain ⟨localErrp, hcall⟩ : ∃ localErrp,
          errorClient this true (some error) = .ok (this, .call (.closing localErrp)) := ⟨_, rfl⟩
      rw [hcall, drive_call] at h
      have houtside : Outside (⟨.closing localErrp, entry⟩ :: k) (startCallee this co
          (⟨.closing localErrp, entry⟩ :: k) (Frame.closing localErrp).callee) :=
        startCallee_outside
      rw [h] at houtside
      exact ⟨_, houtside.2 _ List.mem_cons_self, _, rfl⟩

theorem pending_settle (hne : co ≠ .client i) {turn : Turn} :
    (s.settle co turn).pending i = s.pending i := by
  have hthread : (s.settle co turn).thread (.client i) = s.thread (.client i) := by
    cases turn with
    | error abort => rfl
    | ok result => exact Function.update_of_ne hne.symm ..
  unfold System.pending System.reading
  rw [hthread]

theorem pending_of_point (hthread : s.thread (.client i) = some thread)
    (hpoint : ∀ stoppedQemu, thread.point ≠ .clientReading stoppedQemu) :
    s.pending i = 1 ∧ s.reading i = false := by
  have hreading : s.reading i = false := by
    obtain ⟨point, entry, below⟩ := thread
    simp only [System.reading, hthread]
    split
    · rename_i heq
      cases heq
      exact absurd rfl (hpoint _)
    · rfl
  exact ⟨by simp [System.pending, hreading], hreading⟩

theorem reading_of_point (hthread : s.thread (.client i) = some thread)
    (hpoint : thread.point = .clientReading stoppedQemu) :
    s.pending i = 0 ∧ s.reading i = true := by
  have hreading : s.reading i = true := by
    obtain ⟨point, entry, below⟩ := thread
    cases hpoint
    simp only [System.reading, hthread]
  exact ⟨by simp [System.pending, hreading], hreading⟩

theorem writing_of_point (hthread : s.thread (.client i) = some thread)
    (hpoint : ∀ stoppedQemu result, thread.point ≠ .clientWriting stoppedQemu result) :
    s.writing i = false := by
  obtain ⟨point, entry, below⟩ := thread
  simp only [System.writing, hthread]
  split
  · rename_i heq
    cases heq
    exact absurd rfl (hpoint _ _)
  · rfl

theorem requests_io (lib : JsonGlib) (s : System) {waited : Bool} {outcome : Outcome}
    (hne : co ≠ .client i) :
    requests lib i s (.io co waited outcome) = false ∧
      writes i s (.io co waited outcome) = false := by
  cases co with
  | client j =>
    have hij : i ≠ j := by
      rintro rfl
      exact hne rfl
    cases outcome <;> simp [requests, writes, hij]
  | _ => exact ⟨rfl, rfl⟩

/-- The client loop reads a request and makes its reply or a call, or it has written a reply. -/
theorem pending_io {waited : Bool} {outcome : Outcome} {qmp : ColodQmpState} {next : Thread}
    (hthread : s.thread (.client i) = some thread)
    (hreaction : reactIo lib s.qmp (.client i) thread.point outcome = some reaction)
    (hturn : drive lib (.client i) thread.point.fn thread.entry k reaction =
      .ok (qmp, some next))
    (hserves : ∀ a ∈ next.below, ∀ localErrp, a.frame ≠ .closing localErrp)
    (hnext : t.thread (.client i) = some next) :
    s.pending i + (requests lib i s (.io (.client i) waited outcome)).toNat =
      t.pending i + (writes i s (.io (.client i) waited outcome)).toNat := by
  have hbroken : ∀ stoppedQemu error, reaction ≠ errorClient s.qmp stoppedQemu error := by
    rintro stoppedQemu error rfl
    obtain ⟨a, ha, localErrp, hframe⟩ := drive_errorClient hturn
    exact hserves a ha localErrp hframe
  have hquits : reaction ≠ .ok (s.qmp, .finished) := by
    rintro rfl
    rw [drive_finished] at hturn
    cases hturn
  cases hpoint : thread.point with
  | clientReading stoppedQemu =>
    obtain ⟨hpending, hreading⟩ := reading_of_point hthread hpoint
    rw [hpoint] at hreaction
    cases outcome with
    | line text =>
      cases hreaction
      cases hquit : s.qmp.clientsQuit with
      | true => exact absurd (by simp [clientRead, hquit]) hquits
      | false =>
        cases hparse : qmpParseResult lib text with
        | error error =>
          exact absurd (by simp [clientRead, hquit, hparse]) (hbroken stoppedQemu error)
        | ok request =>
          have hwaits : ∀ stoppedQemu', next.point ≠ .clientReading stoppedQemu' := by
            rw [clientRead_request hquit hparse] at hturn
            cases hrequest : handleRequest lib s.qmp.management request with
            | mk management handled =>
              simp only [hrequest] at hturn
              cases handled with
              | reply result =>
                obtain ⟨reply, -, hwriting⟩ := drive_writeReply hturn
                rw [hwriting]
                simp
              | call call => exact drive_not_reading (by simp [Quiet]) hturn
          rw [hpending, (pending_of_point hnext hwaits).1]
          simp [requests, writes, hreading, hquit, hparse, Except.isOk, Except.toBool]
    | failed error =>
      simp only [reactIo, Option.some.injEq] at hreaction
      split_ifs at hreaction
      · exact absurd hreaction.symm hquits
      · exact absurd hreaction.symm (hbroken _ _)
    | written => cases hreaction
  | clientWriting stoppedQemu result =>
    have hnot : ∀ st, thread.point ≠ .clientReading st := by simp [hpoint]
    obtain ⟨hpending, hreading⟩ := pending_of_point hthread hnot
    have hwriting : s.writing i = true := by
      obtain ⟨point, entry, below⟩ := thread
      cases hpoint
      simp only [System.writing, hthread]
    rw [hpoint] at hreaction
    cases outcome with
    | line text => cases hreaction
    | failed error => exact absurd (Option.some.inj hreaction).symm (hbroken _ _)
    | written =>
      simp only [reactIo, Option.some.injEq] at hreaction
      split_ifs at hreaction
      · exact absurd hreaction.symm hquits
      · subst hreaction
        rw [drive_park] at hturn
        cases hturn
        rw [hpending, (reading_of_point hnext rfl).1]
        simp [requests, writes, hwriting]
  | _ =>
    have hclient : thread.point.fn ≠ .client := by simp [hpoint, Point.fn]
    have hnot : ∀ st, thread.point ≠ .clientReading st := by simp [hpoint]
    obtain ⟨hpending, hreading⟩ := pending_of_point hthread hnot
    have hwriting := writing_of_point hthread (by simp [hpoint])
    have hlater := drive_not_reading (reactIo_quiet hreaction hclient) hturn
    rw [hpending, (pending_of_point hnext hlater).1]
    cases outcome <;> simp [requests, writes, hreading, hwriting]

/-- Every request that is read is pending until its reply is written. -/
theorem pending_step {label : Label} (hstep : s.step lib label = some t) (hs : s.Serves i)
    (ht : t.Serves i) :
    s.pending i + (requests lib i s label).toNat = t.pending i + (writes i s label).toNat := by
  obtain ⟨haborted, thread, hthread, hclosing⟩ := hs
  unfold System.step at hstep
  rw [if_neg (by simp [haborted])] at hstep
  cases label with
  | accept j =>
    simp only at hstep
    split_ifs at hstep with hsome
    cases hstep
    have hne : Co.client j ≠ .client i := by
      rintro heq
      rw [heq, hthread] at hsome
      exact hsome rfl
    rw [pending_settle hne]
    rfl
  | call j call =>
    simp only at hstep
    split_ifs at hstep
    cases hstep
    rw [pending_settle (by simp)]
    rfl
  | main update =>
    cases hstep
    rfl
  | quitClients =>
    cases hstep
    rfl
  | resume co =>
    obtain ⟨thread', hthread', hstep⟩ := Option.bind_eq_some_iff.mp hstep
    obtain ⟨reaction, hreaction, hstep⟩ := Option.bind_eq_some_iff.mp hstep
    cases hstep
    by_cases hco : co = .client i
    · subst hco
      obtain ⟨qmp, next, hturn, -, hnext⟩ := serves_settle ht
      obtain rfl : thread = thread' := Option.some.inj (hthread.symm.trans hthread')
      have hold : ∀ stoppedQemu, thread.point ≠ .clientReading stoppedQemu := by
        intro stoppedQemu hpoint
        rw [hpoint] at hreaction
        cases hreaction
      rw [(pending_of_point hthread hold).1,
        (pending_of_point hnext (drive_not_reading (reactResume_quiet hreaction).1 hturn)).1]
      rfl
    · rw [pending_settle hco]
      rfl
  | io co waited outcome =>
    simp only at hstep
    split_ifs at hstep
    obtain ⟨thread', hthread', hstep⟩ := Option.bind_eq_some_iff.mp hstep
    obtain ⟨reaction, hreaction, hstep⟩ := Option.bind_eq_some_iff.mp hstep
    cases hstep
    by_cases hco : co = .client i
    · subst hco
      obtain ⟨qmp, next, hturn, hserves, hnext⟩ := serves_settle ht
      obtain rfl : thread = thread' := Option.some.inj (hthread.symm.trans hthread')
      exact pending_io hthread hreaction hturn hserves hnext
    · obtain ⟨hrequests, hwrites⟩ := requests_io lib s hco
      rw [pending_settle hco, hrequests, hwrites]

end Once

section Answers
variable {label : Label} {i : ℕ}

/-- A right reply is being written to the client. -/
def System.Replies (s : System) (co : Co) : Prop :=
  s.aborted = none ∧ ∃ thread stoppedQemu result, s.thread co = some thread ∧
    thread.point = .clientWriting stoppedQemu result ∧ WellFormed result.line

/-- The client loop waits for its call. -/
def System.Calls (s : System) (co : Co) : Prop :=
  s.aborted = none ∧ ∃ thread, s.thread co = some thread ∧
    ∃ a ∈ thread.below, a.frame.call.isSome = true

/-- A reply that is right is written. -/
theorem replies_writeReply {result : Option ColodQmpResult} (haborted : s.aborted = none)
    (hright : TurnRight (drive lib co fn entry k (writeReply this stoppedQemu result))) :
    (s.settle co (drive lib co fn entry k (writeReply this stoppedQemu result))).Replies co := by
  cases result with
  | none => simp [writeReply, TurnRight] at hright
  | some reply =>
    have hline : WellFormed reply.line := writeReply_some.mp hright
    rw [writeReply, drive_park]
    exact ⟨haborted, ⟨.clientWriting stoppedQemu reply, entry, k⟩, stoppedQemu, reply,
      by simp [System.settle], rfl, hline⟩

/-- A request that fits is answered at once, or starts a call. -/
theorem reads_step (hlib : ReadsJson lib) (h : Shared s.qmp) (hstep : s.step lib label = some t)
    {request : ColodQmpResult} (hreads : s.Reads lib co label request)
    (hfits : RequestFits lib s.qmp.management request) : t.Replies co ∨ t.Calls co := by
  obtain ⟨waited, text, thread, stoppedQemu, rfl, hthread, hpoint, hquit, hparse⟩ := hreads
  unfold System.step at hstep
  split_ifs at hstep with haborted
  simp only [Outcome.possible, if_true] at hstep
  obtain ⟨thread', hthread', hstep⟩ := Option.bind_eq_some_iff.mp hstep
  obtain rfl : thread = thread' := Option.some.inj (hthread.symm.trans hthread')
  obtain ⟨reaction, hreaction, hstep⟩ := Option.bind_eq_some_iff.mp hstep
  cases hstep
  have hnone : s.aborted = none := by simpa using haborted
  rw [hpoint] at hreaction
  cases hreaction
  have hright : TurnRight (drive lib co thread.point.fn thread.entry
      (if waited then suspended thread.below else thread.below)
      (clientRead lib s.qmp stoppedQemu text)) :=
    (clientRead_right hlib hquit hparse).mpr hfits
  rw [clientRead_request hquit hparse] at hright ⊢
  cases hrequest : handleRequest lib s.qmp.management request with
  | mk management handled =>
    simp only [hrequest] at hright ⊢
    cases handled with
    | reply result => exact .inl (replies_writeReply hnone hright)
    | call call =>
      obtain ⟨next, thread', hstarts, -, hbelow⟩ := startCallee_suspended
        (h.setManagement management) co (⟨.clientWaiting stoppedQemu call, thread.entry⟩ ::
          if waited then suspended thread.below else thread.below)
        (Frame.clientWaiting stoppedQemu call).callee
      rw [drive_call, hstarts]
      exact .inr ⟨hnone, thread', by simp [System.settle], _, hbelow _ List.mem_cons_self, rfl⟩

/-- Outside `qmp.c` a function fails with an error. -/
theorem react_ne_bare {frame : Frame} {this' : ColodQmpState} {r' : Ret} (habove : frame.fn.above)
    (hr : Fn.above (.callee frame.callee) → r ≠ .failed none)
    (h : react lib this co frame r = .ok (this', .ret r')) : r' ≠ .failed none := by
  have hpass : ∀ error : Option GError,
      passError this error = .ok (this', .ret r') → r' ≠ .failed none := by
    intro error h
    cases error with
    | none => cases h
    | some error =>
      cases h
      simp
  cases frame with
  | executeNocheck command =>
    simp only [react, executeNocheckReturned] at h
    split at h
    · exact hpass _ h
    · rename_i hline
      split at h
      · cases h
        simp
      · cases h
        exact hline _
  | colodExecute command =>
    simp only [react, colodExecuteReturned] at h
    split at h
    · split_ifs at h
      · cases h
        simp
      · cases h
        simp
    · cases h
      exact hr trivial
  | colodYank =>
    simp only [react, colodYankReturned] at h
    split at h
    · exact hpass _ h
    · rename_i hline
      cases h
      exact hline _
  | healthStatus =>
    cases r with
    | failed error => exact hpass error h
    | line result => cases h
    | done =>
      cases h
      simp
  | healthColoStatus qemuStatus =>
    cases r with
    | failed error => exact hpass error h
    | line result =>
      cases h
      exact checkHealth_ne_bare _ _
    | done =>
      cases h
      simp
  | clientWaiting stoppedQemu call =>
    rcases clientReturned_cases lib this stoppedQemu call r with ⟨-, hmissing⟩ | ⟨-, st, result, hwrite⟩
    · exact absurd (hmissing.symm.trans h) (by simp)
    · have heq := hwrite.symm.trans h
      cases result <;> cases heq
  | closing localErrp =>
    simp only [react, closingReturned] at h
    split at h
    · split at h <;> cases h
    · cases h
  | _ => exact absurd habove id

theorem handed_ne_bare {reaction : Reaction} {call : QemuCall} (hlinked : Linked co fn k)
    (hret : ∀ this r, reaction = .ok (this, .ret r) → fn.above → r ≠ .failed none)
    (h : handed lib co fn entry k reaction = some (call, r)) : r ≠ .failed none := by
  induction k generalizing fn entry reaction with
  | nil => cases h
  | cons a k ih =>
    match reaction with
    | .error abort => cases h
    | .ok (this, .finished) => cases h
    | .ok (this, .park point) => cases h
    | .ok (this, .call frame) => cases h
    | .ok (this, .ret r') =>
      obtain ⟨rfl, hlinked⟩ := hlinked
      have hr := hret this r' rfl
      rw [handed] at h
      cases hcall : a.frame.call with
      | none =>
        rw [hcall] at h
        exact ih hlinked (fun _ _ hreact habove => react_ne_bare habove hr hreact) h
      | some call' =>
        rw [hcall] at h
        cases h
        apply hr
        cases hframe : a.frame with
        | clientWaiting stoppedQemu call => cases call <;> trivial
        | _ =>
          rw [hframe] at hcall
          cases hcall

/-- What a call returns is answered if it fits. -/
theorem hands_step (hlib : ReadsJson lib) (h : Balanced s) (hstep : s.step lib label = some t)
    {call : QemuCall} (hhands : s.Hands lib co label call r) (hfits : AnswerFits call r) :
    t.Replies co := by
  obtain ⟨waited, outcome, thread, reaction, rfl, hthread, hreaction, hhanded⟩ := hhands
  unfold System.step at hstep
  split_ifs at hstep with haborted
  simp only at hstep
  split_ifs at hstep
  obtain ⟨thread', hthread', hstep⟩ := Option.bind_eq_some_iff.mp hstep
  obtain rfl : thread = thread' := Option.some.inj (hthread.symm.trans hthread')
  obtain ⟨reaction', hreaction', hstep⟩ := Option.bind_eq_some_iff.mp hstep
  obtain rfl : reaction = reaction' := Option.some.inj (hreaction.symm.trans hreaction')
  cases hstep
  have hnone : s.aborted = none := by simpa using haborted
  have hpoint : thread.point.fn ≠ .client := by
    intro hpoint
    rw [handed_eq_none (reactIo_ne_ret hreaction hpoint)] at hhanded
    cases hhanded
  have hr : r ≠ .failed none := by
    have hlinked : Linked co thread.point.fn
        (if waited then suspended thread.below else thread.below) := by
      split_ifs
      · exact (linked_suspended _).mpr (h.threadOk hthread).linked
      · exact (h.threadOk hthread).linked
    refine handed_ne_bare hlinked (fun _ _ _ habove => ?_) hhanded
    cases hfn : thread.point <;> rw [hfn] at habove hpoint
    all_goals first | exact absurd rfl hpoint | exact absurd habove id
  have hquiet := reactIo_quiet hreaction hpoint
  have hright := (drive_right hlib hquiet).mpr fun call' r' heq => by
    rw [hhanded] at heq
    cases heq
    exact hfits
  have hdrive := drive_handed lib co thread.point.fn thread.entry
    (if waited then suspended thread.below else thread.below) hquiet
  rw [hhanded] at hdrive
  obtain ⟨this, stoppedQemu, entry', k', heq⟩ := hdrive
  rcases clientReturned_cases lib this stoppedQemu call r with ⟨hnone, -⟩ | ⟨-, st, result, hwrite⟩
  · exact absurd hnone hr
  · rw [heq, hwrite] at hright ⊢
    exact replies_writeReply hnone hright

/-- A reply of qemu with an error cannot be quoted in a reply to the client. -/
theorem qemu_error_misfits {call : QemuCall} {command line : String} (hcall : call ≠ .queryStatus)
    (hcommand : '\n' ∈ command.toList) :
    ¬ AnswerFits call (.failed (some
      ⟨.qmp, "qmp command returned error: " ++ command ++ " " ++ line⟩)) := by
  rintro (hstatus | hsplices)
  · exact hcall hstatus
  · refine JsonText.not_splices ?_ hsplices
    simp only [String.toList_append, List.mem_append]
    exact .inl (.inl (.inr hcommand))

/-- What holds of each request and of each call of a client. -/
structure AnsweredOnce (lib : JsonGlib) (s : System) : Prop where
  request : ∀ co label t request, s.step lib label = some t → s.Reads lib co label request →
    RequestFits lib s.qmp.management request → t.Replies co ∨ t.Calls co
  answer : ∀ co label t call r, s.step lib label = some t → s.Hands lib co label call r →
    AnswerFits call r → t.Replies co
  once : ∀ i labels t, run (System.step lib) s labels = some t → s.reading i = true →
    Along (System.step lib) (fun u _ => u.Serves i) s labels → t.Serves i →
    count (System.step lib) (requests lib i) s labels =
      t.pending i + count (System.step lib) (writes i) s labels

theorem requests_answered_iff (hlib : ReadsJson lib) {management : Management}
    {labels : List Label}
    (hrun : run (System.step lib) (System.qmpNew management) labels = some s) :
    ((∀ n u, run (System.step lib) (System.qmpNew management) (labels.take n) = some u →
        RepliesRight u) ↔
      Along (System.step lib) (Fits lib) (System.qmpNew management) labels) ∧
    AnsweredOnce lib s := by
  have hinit : RepliesRight (System.qmpNew management) := by
    refine ⟨by simp [System.qmpNew], ?_⟩
    intro co thread stoppedQemu result hthread hpoint
    cases co with
    | handshake | event =>
      cases hthread
      cases hpoint
    | main | client => cases hthread
  have hbalanced : Balanced s :=
    run_invariant (fun _ _ _ hstep h => balanced_step h hstep) hrun (balanced_qmpNew management)
  refine ⟨along_iff_invariant (fun _ _ _ => right_step hlib) hrun hinit, ?_, ?_, ?_⟩
  · intro co label t request hstep hreads hfits
    exact reads_step hlib hbalanced.shared hstep hreads hfits
  · intro co label t call r hstep hhands hfits
    exact hands_step hlib hbalanced hstep hhands hfits
  · intro i labels t hrun hreading halong ht
    have hbalance : s.pending i + count (System.step lib) (requests lib i) s labels =
        t.pending i + count (System.step lib) (writes i) s labels :=
      count_balance (fun _ _ _ hstep hs ht => pending_step hstep hs ht) hrun halong ht
    simpa [System.pending, hreading] using hbalance

def stopReply : String := "\x7b\"return\": \x7b\x7d\x7d\n"

def refusal : String :=
  "\x7b\"error\": \x7b\"class\": \"GenericError\", \"desc\": \"refused\"\x7d\x7d\n"

/-- A parser of the texts that are JSON. -/
def strictGlib : JsonGlib where
  fromString text :=
    if JsonText.isObject text.toList then
      .value (.object (
        if text = stopRequest then [("exec-colod", .string "stop")]
        else if text = stopReply then [("return", .object [])]
        else if text = refusal then [("error", .object [])]
        else []))
    else .unparsable "Parse error"
  toText _ := "[]"
  equal _ _ := false

theorem readsJson_strictGlib : ReadsJson strictGlib := by
  intro text h
  exact ⟨_, by simp only [strictGlib, if_pos h]; rfl⟩

/-- The handshake of the main channel, and a client that stops qemu. -/
def stopsQemu (reply : String) : List Label :=
  [.resume (.handshake .channel), .io (.handshake .channel) true (.line "\x7b\x7d\n"),
    .io (.handshake .channel) true .written,
    .io (.handshake .channel) true (.line "\x7b\x7d\n"), .accept 0,
    .io (.client 0) true (.line stopRequest), .io (.client 0) true .written,
    .io (.client 0) true (.line reply)]

theorem requests_answered_iff_stop :
    ∃ s, run (System.step strictGlib) (System.qmpNew configuredManagement)
        (stopsQemu stopReply) = some s ∧ s.writing 0 = true ∧
      ((∀ n u, run (System.step strictGlib) (System.qmpNew configuredManagement)
          ((stopsQemu stopReply).take n) = some u → RepliesRight u) ↔
        Along (System.step strictGlib) (Fits strictGlib) (System.qmpNew configuredManagement)
          (stopsQemu stopReply)) ∧ AnsweredOnce strictGlib s := by
  have hmap : (run (System.step strictGlib) (System.qmpNew configuredManagement)
      (stopsQemu stopReply)).map (fun s => s.writing 0) = some true := by decide +kernel
  obtain ⟨s, hrun, hwriting⟩ := Option.map_eq_some_iff.mp hmap
  exact ⟨s, hrun, hwriting, requests_answered_iff readsJson_strictGlib hrun⟩

/-- Qemu refuses to stop. -/
theorem refusal_crashes :
    ∃ s, run (System.step strictGlib) (System.qmpNew configuredManagement)
      (stopsQemu refusal) = some s ∧ ¬ RepliesRight s := by
  have hmap : (run (System.step strictGlib) (System.qmpNew configuredManagement)
      (stopsQemu refusal)).map System.aborted = some (some .replyAssertion) := by decide +kernel
  obtain ⟨s, hrun, haborted⟩ := Option.map_eq_some_iff.mp hmap
  exact ⟨s, hrun, fun h => h.assertions haborted⟩

end Answers
end ColoDaemon.QmpFrames
