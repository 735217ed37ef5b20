import ColoDaemon.ClientRequests
import ColoDaemon.Runs
import Mathlib.Tactic.Common

/-!
# Values that clients store and query

Between two requests of one client the others make theirs, and the main coroutine makes its updates.
The store is printed by the generator of
json-glib, the peer is spliced between two quotes. `ReadsStrings` is what the parser makes of the
quotes: `raw` are the characters that may stand for themselves there.
-/

namespace ColoDaemon
open Runs

inductive ManagementLabel
  | request (request : ColodQmpResult)
  | main (update : MainUpdate)

/-- `none` is a failed assertion about a reply. -/
def managementStep (lib : JsonGlib) (this : Management) : ManagementLabel → Option Management
  | .request request =>
    match handleRequest lib this request with
    | (_, .reply none) => none
    | (next, _) => some next
  | .main update => some (this.update update)

namespace ManagementValues

def SetsStore : ManagementLabel → Prop
  | .request request => execColod request = some .setStore
  | .main _ => False

def SetsPeer : ManagementLabel → Prop
  | .request request =>
    execColod request = some .setPeer ∨ execColod request = some .clearPeer
  | .main update => update = .failover

variable {lib : JsonGlib} {this next : Management}

theorem management_request {request : ColodQmpResult}
    (h : managementStep lib this (.request request) = some next) :
    next = (handleRequest lib this request).1 := by
  simp only [managementStep] at h
  split at h
  · cases h
  · rename_i heq
    cases h
    rw [heq]

theorem store_step {label : ManagementLabel} (h : managementStep lib this label = some next)
    (hlabel : ¬ SetsStore label) : next.store = this.store := by
  cases label with
  | request request => rw [management_request h, handleRequest_store hlabel]
  | main update =>
    cases h
    cases update <;> rfl

theorem peer_step {label : ManagementLabel} (h : managementStep lib this label = some next)
    (hlabel : ¬ SetsPeer label) : next.peer = this.peer := by
  cases label with
  | request request =>
    simp only [SetsPeer, not_or] at hlabel
    rw [management_request h, handleRequest_peer hlabel.1 hlabel.2]
  | main update =>
    cases h
    cases update with
    | failover => exact absurd rfl hlabel
    | _ => rfl

theorem store_run {labels : List ManagementLabel}
    (h : run (managementStep lib) this labels = some next)
    (hlabels : ∀ label ∈ labels, ¬ SetsStore label) : next.store = this.store := by
  induction labels generalizing this with
  | nil => cases h; rfl
  | cons label labels ih =>
    obtain ⟨t, ht, hrun⟩ := run_cons_eq_some.mp h
    rw [List.forall_mem_cons] at hlabels
    rw [ih hrun hlabels.2, store_step ht hlabels.1]

theorem peer_run {labels : List ManagementLabel}
    (h : run (managementStep lib) this labels = some next)
    (hlabels : ∀ label ∈ labels, ¬ SetsPeer label) : next.peer = this.peer := by
  induction labels generalizing this with
  | nil => cases h; rfl
  | cons label labels ih =>
    obtain ⟨t, ht, hrun⟩ := run_cons_eq_some.mp h
    rw [List.forall_mem_cons] at hlabels
    rw [ih hrun hlabels.2, peer_step ht hlabels.1]

/-- A text spells a string between two quotes: a character stands for itself, or an escape sequence
stands for it. -/
inductive Spells (raw : Char → Bool) (quote : Char) : List Char → List Char → Prop
  | nil : Spells raw quote [] []
  | raw {c : Char} {body s : List Char} (hquote : c ≠ quote) (hescape : c ≠ '\\')
      (hraw : c = '\x22' ∨ raw c = true) (h : Spells raw quote body s) :
      Spells raw quote (c :: body) (c :: s)
  | escape {c : Char} {sequence body s : List Char} (hsequence : sequence ≠ [])
      (h : Spells raw quote body s) : Spells raw quote ('\\' :: sequence ++ body) (c :: s)

/-- The string stands in the text, between quotes of one kind. -/
def Quoted (raw : Char → Bool) (text s : List Char) : Prop :=
  ∃ before quote body after, (quote = '\x22' ∨ quote = '\x27') ∧
    text = before ++ quote :: (body ++ quote :: after) ∧ Spells raw quote body s

/-- What the parser makes of the replies with a string in them. -/
structure ReadsStrings (lib : JsonGlib) (raw : Char → Bool) : Prop where
  raw_of_plain : ∀ c : Char, c ≠ '\x22' → c ≠ '\\' → 32 ≤ c.toNat → raw c = true
  quote_not_raw : raw '\x22' = false
  escape_not_raw : raw '\\' = false
  empty : lib.fromString (replyText "\x7b\x7d") = .value (.object [("return", .object [])])
  error : ∀ message : String, (∀ c ∈ message.toList, raw c = true) →
    lib.fromString (errorReplyText message) = .value (.object [("error", .string message)])
  peer : ∀ peer : String, (∀ c ∈ peer.toList, raw c = true) →
    lib.fromString (peerReplyText peer) =
      .value (.object [("return", .object [("peer", .string peer)])])
  quoted : ∀ text peer : String,
    lib.fromString text = .value (.object [("return", .object [("peer", .string peer)])]) →
      Quoted raw text.toList peer.toList

/-- The generator prints the value on one line, which reads back as the value. -/
def Regenerates (lib : JsonGlib) (value : Json) : Prop :=
  '\n' ∉ (lib.toText value).toList ∧
    lib.fromString (replyText (lib.toText value)) = .value (.object [("return", value)])

def OneLine (text : String) : Prop := ∃ body, text.toList = body ++ ['\n'] ∧ '\n' ∉ body

/-- The request is answered with one line, which parses to an object that returns the value. -/
def Answers (lib : JsonGlib) (this : Management) (request : ColodQmpResult) (value : Json) :
    Prop :=
  ∃ next result, handleRequest lib this request = (next, .reply (some result)) ∧
    OneLine result.line ∧ lib.fromString result.line = .value (.object [("return", value)])

/-- The request is answered with an error and changes nothing. -/
def Rejected (lib : JsonGlib) (this : Management) (request : ColodQmpResult) : Prop :=
  ∃ result, handleRequest lib this request = (this, .reply (some result)) ∧
    hasMember result.members "error" = true

/-- A string is what the next queries return; anything else is rejected. -/
def SetsPeerRight (lib : JsonGlib) (this : Management) (set : ColodQmpResult) : Prop :=
  match set.members.lookup "peer" with
  | some (.string peer) =>
    ∀ labels next query,
      run (managementStep lib) this (.request set :: labels) = some next →
      (∀ label ∈ labels, ¬ SetsPeer label) → execColod query = some .queryPeer →
      Answers lib next query (.object [("peer", .string peer)])
  | _ => Rejected lib this set

section Spelling
variable {raw : Char → Bool} {quote : Char} {body s : List Char}

theorem Spells.length_le (h : Spells raw quote body s) : s.length ≤ body.length := by
  induction h with
  | nil => exact le_rfl
  | raw _ _ _ _ ih => simpa using ih
  | escape _ _ ih =>
    simp only [List.length_cons, List.length_append]
    omega

/-- Without escape sequences the text is the string. -/
theorem Spells.eq_of_no_escape (h : Spells raw quote body s) (hbody : '\\' ∉ body) :
    body = s ∧ ∀ c ∈ s, c ≠ quote ∧ (c = '\x22' ∨ raw c = true) := by
  induction h with
  | nil => simp
  | raw hquote hescape hraw _ ih =>
    obtain ⟨rfl, hall⟩ := ih (fun hmem => hbody (List.mem_cons_of_mem _ hmem))
    exact ⟨rfl, List.forall_mem_cons.mpr ⟨⟨hquote, hraw⟩, hall⟩⟩
  | escape => exact absurd (by simp) hbody

/-- An escape sequence takes more room than its character. -/
theorem Spells.no_escape_of_length (h : Spells raw quote body s)
    (hlength : body.length ≤ s.length) : '\\' ∉ body := by
  induction h with
  | nil => simp
  | raw hquote hescape hraw _ ih =>
    rw [List.mem_cons, not_or]
    exact ⟨hescape.symm, ih (by simpa using hlength)⟩
  | @escape c sequence body s hsequence h ih =>
    have hle := h.length_le
    have hpos := List.length_pos_iff.mpr hsequence
    simp only [List.length_cons, List.length_append] at hlength
    omega

/-- The quote ends the string unless an escape sequence comes before. -/
theorem Spells.escape_before_quote (h : Spells raw quote body s) (hquote : quote ≠ '\\')
    {first rest : List Char} (hbody : body = first ++ quote :: rest) : '\\' ∈ first := by
  induction h generalizing first with
  | nil => simp at hbody
  | raw hne hescape hraw h ih =>
    cases first with
    | nil =>
      simp only [List.nil_append, List.cons.injEq] at hbody
      exact absurd hbody.1 hne
    | cons c first =>
      simp only [List.cons_append, List.cons.injEq] at hbody
      exact List.mem_cons_of_mem _ (ih hbody.2)
  | escape =>
    cases first with
    | nil =>
      simp only [List.nil_append, List.cons_append, List.cons.injEq] at hbody
      exact absurd hbody.1.symm hquote
    | cons c first =>
      simp only [List.cons_append, List.cons.injEq] at hbody
      rw [hbody.1]
      exact List.mem_cons_self

/-- A string that is spelled by itself between the quotes of the reply. -/
theorem raw_of_spells {peer : List Char} (h : Spells raw '\x22' body peer)
    (hbody : '\\' ∉ body) : ∀ c ∈ peer, raw c = true := by
  intro c hc
  obtain ⟨-, hall⟩ := h.eq_of_no_escape hbody
  exact (hall c hc).2.resolve_left (hall c hc).1

/-- If a text splices a string between two quotes and nowhere else has room for it, then the
string is quoted in the text only if its characters stand for themselves. -/
theorem raw_of_quoted {head tail peer : List Char} (hescape : '\\' ∉ head)
    (hhead : '\x27' ∉ head) (htail : '\x22' ∉ tail) (htail' : '\x27' ∉ tail)
    (h : Quoted raw (head ++ '\x22' :: (peer ++ '\x22' :: tail)) peer) :
    ∀ c ∈ peer, raw c = true := by
  obtain ⟨before, quote, body, after, hquote, htext, hspells⟩ := h
  have hle := hspells.length_le
  have hnotTail : quote ∉ tail := by
    rcases hquote with rfl | rfl
    · exact htail
    · exact htail'
  have hnotEscape : quote ≠ '\\' := by
    rcases hquote with rfl | rfl <;> decide
  -- the quotes of the string are those around the splice
  have hsplice : quote = '\x22' → peer ++ '\x22' :: tail = body ++ quote :: after →
      ∀ c ∈ peer, raw c = true := by
    rintro rfl heq
    have hlength : body.length ≤ peer.length := by
      rcases List.append_eq_append_iff.mp heq with ⟨rest, rfl, hrest⟩ | ⟨rest, hpeer, -⟩
      · cases rest with
        | nil => simp
        | cons c rest =>
          simp only [List.cons_append, List.cons.injEq] at hrest
          exact absurd (hrest.2 ▸ by simp) htail
      · rw [hpeer, List.length_append]
        exact Nat.le_add_right _ _
    exact raw_of_spells hspells (hspells.no_escape_of_length hlength)
  rcases List.append_eq_append_iff.mp htext with ⟨rest, hbefore, hrest⟩ | ⟨rest, hhead', hrest⟩
  · cases rest with
    | nil =>
      simp only [List.nil_append, List.cons.injEq] at hrest
      exact hsplice hrest.1.symm hrest.2
    | cons c rest =>
      -- the string starts inside the splice and has no room there
      simp only [List.cons_append, List.cons.injEq] at hrest
      have hsplit : peer ++ '\x22' :: tail = (rest ++ quote :: body) ++ quote :: after := by
        rw [hrest.2]
        simp
      rcases List.append_eq_append_iff.mp hsplit with ⟨y, hy, hend⟩ | ⟨y, hpeer, -⟩
      · cases y with
        | nil =>
          have hlength := congrArg List.length hy
          simp only [List.length_append, List.length_cons, List.length_nil] at hlength
          omega
        | cons d y =>
          simp only [List.cons_append, List.cons.injEq] at hend
          exact absurd (hend.2 ▸ by simp) hnotTail
      · have hlength := congrArg List.length hpeer
        simp only [List.length_append, List.length_cons] at hlength
        omega
  · cases rest with
    | nil =>
      simp only [List.nil_append, List.cons.injEq] at hrest
      exact hsplice hrest.1 hrest.2.symm
    | cons c rest =>
      -- the string starts before the splice and ends there
      simp only [List.cons_append, List.cons.injEq] at hrest
      obtain ⟨rfl, hrest⟩ := hrest
      have hrestEscape : '\\' ∉ rest := by
        intro hmem
        exact hescape (hhead' ▸ by simp [hmem])
      have hdouble : quote = '\x22' := by
        refine hquote.resolve_right ?_
        rintro rfl
        exact hhead (hhead' ▸ by simp)
      subst hdouble
      apply raw_of_spells hspells
      rcases List.append_eq_append_iff.mp hrest with ⟨y, hy, -⟩ | ⟨y, hy, hend⟩
      · intro hmem
        exact hrestEscape (hy ▸ List.mem_append_left _ hmem)
      · cases y with
        | nil =>
          rw [hy, List.append_nil]
          exact hrestEscape
        | cons d y =>
          simp only [List.cons_append, List.cons.injEq] at hend
          rw [← hend.1] at hy
          exact absurd (hspells.escape_before_quote hnotEscape hy) hrestEscape

end Spelling

def peerHead : List Char := "\x7b\"return\": \x7b\"peer\": ".toList
def peerTail : List Char := "\x7d\x7d\n".toList

theorem toList_spliced (before s after : String) :
    (before ++ s ++ after).toList = before.toList ++ s.toList ++ after.toList := by
  rw [String.toList_append, String.toList_append]

theorem peerReplyText_toList (peer : String) :
    (peerReplyText peer).toList = peerHead ++ '\x22' :: (peer.toList ++ '\x22' :: peerTail) := by
  have hhead : "\x7b\"return\": \x7b\"peer\": \"".toList = peerHead ++ ['\x22'] := by decide
  have htail : "\"\x7d\x7d\n".toList = '\x22' :: peerTail := by decide
  calc (peerReplyText peer).toList
      = "\x7b\"return\": \x7b\"peer\": \"".toList ++ peer.toList ++ "\"\x7d\x7d\n".toList :=
        toList_spliced _ _ _
    _ = (peerHead ++ ['\x22']) ++ peer.toList ++ ('\x22' :: peerTail) :=
        congrArg₂ (· ++ peer.toList ++ ·) hhead htail
    _ = peerHead ++ '\x22' :: (peer.toList ++ '\x22' :: peerTail) := by
        simp only [List.append_assoc, List.cons_append, List.nil_append]

theorem oneLine_peerReply (peer : String) :
    OneLine (peerReplyText peer) ↔ '\n' ∉ peer.toList := by
  have htext : (peerReplyText peer).toList =
      (peerHead ++ '\x22' :: (peer.toList ++ ['\x22', '\x7d', '\x7d'])) ++ ['\n'] := by
    simp [peerReplyText_toList, peerTail]
  constructor
  · rintro ⟨body, hbody, hnot⟩ hmem
    rw [htext] at hbody
    rw [← (List.append_left_inj _).mp hbody] at hnot
    exact hnot (by simp [hmem])
  · intro hnot
    refine ⟨_, htext, ?_⟩
    simpa [hnot] using (by decide : '\n' ∉ peerHead)

theorem oneLine_reply {member : String} (h : '\n' ∉ member.toList) :
    OneLine (replyText member) := by
  have htail : "\x7d\n".toList = ['\x7d'] ++ ['\n'] := by decide
  refine ⟨"\x7b\"return\": ".toList ++ member.toList ++ ['\x7d'], ?_, by simp [h]⟩
  calc (replyText member).toList
      = "\x7b\"return\": ".toList ++ member.toList ++ "\x7d\n".toList := toList_spliced _ _ _
    _ = "\x7b\"return\": ".toList ++ member.toList ++ (['\x7d'] ++ ['\n']) :=
        congrArg ("\x7b\"return\": ".toList ++ member.toList ++ ·) htail
    _ = "\x7b\"return\": ".toList ++ member.toList ++ ['\x7d'] ++ ['\n'] :=
        (List.append_assoc ..).symm

theorem parseReply_object {text : String} {members : Members}
    (h : lib.fromString text = .value (.object members)) :
    parseReply lib text = some ⟨members, text⟩ := by
  have hok : qmpParseResult lib text = .ok ⟨members, text⟩ := qmpParseResult_ok.mpr ⟨h, rfl⟩
  rw [parseReply, hok]

theorem parseReply_line {text : String} {result : ColodQmpResult}
    (h : parseReply lib text = some result) : result.line = text := by
  unfold parseReply at h
  split at h
  · rename_i hok
    cases h
    exact (qmpParseResult_ok.mp hok).2
  · cases h

/-- The store is what the next queries return. -/
theorem answers_store {set query : ColodQmpResult} {value : Json} {labels : List ManagementLabel}
    (hset : execColod set = some .setStore) (hvalue : set.members.lookup "store" = some value)
    (hgenerates : Regenerates lib value)
    (hrun : run (managementStep lib) this (.request set :: labels) = some next)
    (hlabels : ∀ label ∈ labels, ¬ SetsStore label) (hquery : execColod query = some .queryStore) :
    Answers lib next query value := by
  obtain ⟨t, ht, hrun⟩ := run_cons_eq_some.mp hrun
  have hstored : t.store = some value := by
    rw [management_request ht, handleRequest_command hset]
    simp only [handleCommand, handleSetStore, getMemberNode, hvalue]
  have hnext : next.store = some value := (store_run hrun hlabels).trans hstored
  refine ⟨next, ⟨[("return", value)], replyText (lib.toText value)⟩, ?_, oneLine_reply hgenerates.1, hgenerates.2⟩
  rw [handleRequest_command hquery]
  simp only [handleCommand, handleQueryStore, hnext, createReply,
    parseReply_object hgenerates.2]

/-- The peer is what the next queries splice. -/
theorem answers_peer_iff {raw : Char → Bool} (hlib : ReadsStrings lib raw) {query : ColodQmpResult}
    {peer : String} (hpeer : this.peer = some peer) (hquery : execColod query = some .queryPeer) :
    Answers lib this query (.object [("peer", .string peer)]) ↔
      ∀ c ∈ peer.toList, raw c = true ∧ c ≠ '\n' := by
  have hhandle : handleRequest lib this query =
      (this, .reply (parseReply lib (peerReplyText peer))) := by
    rw [handleRequest_command hquery]
    simp only [handleCommand, handleQueryPeer, hpeer, printString, Option.getD_some]
  constructor
  · rintro ⟨next, result, hresult, hline, hvalue⟩ c hc
    rw [hhandle, Prod.mk.injEq, Handled.reply.injEq] at hresult
    have htext := parseReply_line hresult.2
    rw [htext] at hline hvalue
    have hquoted := hlib.quoted _ _ hvalue
    rw [peerReplyText_toList] at hquoted
    refine ⟨raw_of_quoted (by decide) (by decide) (by decide) (by decide) hquoted c hc, ?_⟩
    rintro rfl
    exact (oneLine_peerReply peer).mp hline hc
  · intro hraw
    have hvalue := hlib.peer peer (fun c hc => (hraw c hc).1)
    refine ⟨this, ⟨[("return", .object [("peer", .string peer)])], peerReplyText peer⟩,
      ?_, ?_, hvalue⟩
    · rw [hhandle, parseReply_object hvalue]
    · exact (oneLine_peerReply peer).mpr (fun hmem => (hraw _ hmem).2 rfl)

theorem handleRequest_setPeer {set : ColodQmpResult} {node : Json}
    (hset : execColod set = some .setPeer) (hnode : set.members.lookup "peer" = some node) :
    handleRequest lib this set =
      (this.colodSetPeer node.getString, .reply (createReply lib "\x7b\x7d")) := by
  rw [handleRequest_command hset]
  simp [handleCommand, handleSetPeer, hasMember, getMemberStr, hnode]

/-- A member that is not a string is taken all the same. -/
theorem not_rejected {raw : Char → Bool} (hlib : ReadsStrings lib raw) {set : ColodQmpResult}
    {node : Json} (hset : execColod set = some .setPeer)
    (hnode : set.members.lookup "peer" = some node) : ¬ Rejected lib this set := by
  rintro ⟨result, hresult, herror⟩
  rw [handleRequest_setPeer hset hnode, createReply, parseReply_object hlib.empty,
    Prod.mk.injEq, Handled.reply.injEq, Option.some.injEq] at hresult
  rw [← hresult.2] at herror
  exact absurd herror (by decide)

theorem rejected_of_missing {raw : Char → Bool} (hlib : ReadsStrings lib raw)
    {set : ColodQmpResult} (hset : execColod set = some .setPeer)
    (hmissing : set.members.lookup "peer" = none) : Rejected lib this set := by
  have hplain : ∀ c ∈ "Member 'peer' missing".toList, raw c = true := by
    have hall : "Member 'peer' missing".toList.all
        (fun c => c ≠ '\x22' ∧ c ≠ '\\' ∧ 32 ≤ c.toNat) = true := by decide
    intro c hc
    obtain ⟨hquote, hescape, hcontrol⟩ := of_decide_eq_true (List.all_eq_true.mp hall c hc)
    exact hlib.raw_of_plain c hquote hescape hcontrol
  refine ⟨⟨[("error", .string "Member 'peer' missing")],
    errorReplyText "Member 'peer' missing"⟩, ?_, rfl⟩
  · rw [handleRequest_command hset]
    simp only [handleCommand, handleSetPeer, hasMember, hmissing, Option.isSome_none,
      Bool.false_eq_true, if_false, createErrorReply, parseReply_object (hlib.error _ hplain)]

theorem setsPeerRight_iff {raw : Char → Bool} (hlib : ReadsStrings lib raw) {set : ColodQmpResult}
    (hset : execColod set = some .setPeer) :
    SetsPeerRight lib this set ↔ ∀ node, set.members.lookup "peer" = some node →
      ∃ peer, node = .string peer ∧ ∀ c ∈ peer.toList, raw c = true ∧ c ≠ '\n' := by
  unfold SetsPeerRight
  cases hnode : set.members.lookup "peer" with
  | none => simpa using rejected_of_missing hlib hset hnode
  | some node =>
    cases node with
    | string peer =>
      simp only [Option.some.injEq, forall_eq', Json.string.injEq, exists_eq_left']
      have hset' : managementStep lib this (.request set) =
          some (this.colodSetPeer (some peer)) := by
        simp only [managementStep, handleRequest_setPeer hset hnode, createReply,
          parseReply_object hlib.empty, Json.getString]
      constructor
      · intro h
        have hanswers := h [] _ ⟨[("exec-colod", .string "query-peer")], ""⟩
          (run_cons_eq_some.mpr ⟨_, hset', rfl⟩) (by simp) rfl
        exact (answers_peer_iff hlib rfl rfl).mp hanswers
      · intro hraw labels next query hrun hlabels hquery
        obtain ⟨t, ht, hrun⟩ := run_cons_eq_some.mp hrun
        rw [hset', Option.some.injEq] at ht
        have hpeer : next.peer = some peer := (peer_run hrun hlabels).trans (ht ▸ rfl)
        exact (answers_peer_iff hlib hpeer hquery).mpr hraw
    | null | bool _ | number _ | array _ | object _ =>
      simp [not_rejected hlib hset hnode]

theorem management_values_iff {raw : Char → Bool} (hlib : ReadsStrings lib raw)
    (this : Management) :
    (∀ set value labels next query, execColod set = some .setStore →
      set.members.lookup "store" = some value → Regenerates lib value →
      run (managementStep lib) this (.request set :: labels) = some next →
      (∀ label ∈ labels, ¬ SetsStore label) → execColod query = some .queryStore →
      Answers lib next query value) ∧
    ∀ set, execColod set = some .setPeer →
      (SetsPeerRight lib this set ↔ ∀ node, set.members.lookup "peer" = some node →
        ∃ peer, node = .string peer ∧ ∀ c ∈ peer.toList, raw c = true ∧ c ≠ '\n') := by
  constructor
  · intro set value labels next query hset hvalue hgenerates hrun hlabels hquery
    exact answers_store hset hvalue hgenerates hrun hlabels hquery
  · intro set hset
    exact setsPeerRight_iff hlib hset

def plain (c : Char) : Bool := c ≠ '\x22' && c ≠ '\\' && 32 ≤ c.toNat

/-- What stands between two parts of a text, if it is plain. -/
def between (before after text : List Char) : Option String :=
  let middle := (text.drop before.length).take (text.length - before.length - after.length)
  if text = before ++ middle ++ after ∧ middle.all plain then some (String.ofList middle) else none

def errorHead : List Char := "\x7b\"error\": \"".toList

/-- A parser of the replies that splice a plain string. -/
def plainGlib : JsonGlib where
  fromString text :=
    match between (peerHead ++ ['\x22']) ('\x22' :: peerTail) text.toList with
    | some peer => .value (.object [("return", .object [("peer", .string peer)])])
    | none =>
      match between errorHead "\"\x7d\n".toList text.toList with
      | some message => .value (.object [("error", .string message)])
      | none =>
        if text.toList = "\x7b\"return\": \x7b\x7d\x7d\n".toList then
          .value (.object [("return", .object [])])
        else .unparsable "Parse error"
  toText _ := "\x7b\x7d"
  equal _ _ := false

theorem between_eq_some {before after text : List Char} {s : String}
    (h : between before after text = some s) :
    text = before ++ s.toList ++ after ∧ s.toList.all plain = true := by
  simp only [between] at h
  split_ifs at h with hmiddle
  cases h
  rw [String.toList_ofList]
  exact hmiddle

theorem between_spliced {before after s : List Char} (h : s.all plain = true) :
    between before after (before ++ s ++ after) = some (String.ofList s) := by
  have hmiddle : ((before ++ s ++ after).drop before.length).take
      ((before ++ s ++ after).length - before.length - after.length) = s := by
    rw [List.append_assoc, List.drop_left]
    apply List.take_left'
    simp only [List.length_append]
    omega
  unfold between
  simp only [hmiddle, h, and_self, if_true]

theorem spells_of_plain {s : List Char} (h : ∀ c ∈ s, plain c = true) :
    Spells plain '\x22' s s := by
  induction s with
  | nil => exact .nil
  | cons c s ih =>
    rw [List.forall_mem_cons] at h
    have hc : plain c = true := h.1
    simp only [plain, Bool.and_eq_true, decide_eq_true_eq] at hc
    exact .raw hc.1.1 hc.1.2 (.inr h.1) (ih h.2)

theorem errorReplyText_toList (message : String) :
    (errorReplyText message).toList = errorHead ++ message.toList ++ "\"\x7d\n".toList :=
  toList_spliced _ _ _

theorem peerReplyText_between (peer : String) :
    (peerReplyText peer).toList = (peerHead ++ ['\x22']) ++ peer.toList ++ '\x22' :: peerTail := by
  rw [peerReplyText_toList]
  simp only [List.append_assoc, List.cons_append, List.nil_append]

/-- The two replies differ in their third character. -/
theorem between_error (message : String) :
    between (peerHead ++ ['\x22']) ('\x22' :: peerTail) (errorReplyText message).toList = none := by
  rw [Option.eq_none_iff_forall_ne_some]
  intro s hs
  have htext := (between_eq_some hs).1
  rw [errorReplyText_toList] at htext
  have hthird := congrArg (·[2]?) htext
  simp only [List.append_assoc] at hthird
  rw [List.getElem?_append_left (by decide), List.getElem?_append_left (by decide)] at hthird
  exact absurd hthird (by decide)

theorem plainGlib_reads : ReadsStrings plainGlib plain where
  raw_of_plain c hquote hescape hcontrol := by simp [plain, hquote, hescape, hcontrol]
  quote_not_raw := by decide
  escape_not_raw := by decide
  empty := by
    have hpeer : between (peerHead ++ ['\x22']) ('\x22' :: peerTail)
        (replyText "\x7b\x7d").toList = none := by decide
    have herror : between errorHead "\"\x7d\n".toList (replyText "\x7b\x7d").toList = none := by
      decide
    have hempty : (replyText "\x7b\x7d").toList = "\x7b\"return\": \x7b\x7d\x7d\n".toList := by
      decide
    simp only [plainGlib, hpeer, herror, if_pos hempty]
  error message hraw := by
    have herror : between errorHead "\"\x7d\n".toList (errorReplyText message).toList =
        some message := by
      rw [errorReplyText_toList, between_spliced (List.all_eq_true.mpr hraw),
        String.ofList_toList]
    simp only [plainGlib, between_error, herror]
  peer peer hraw := by
    have hpeer : between (peerHead ++ ['\x22']) ('\x22' :: peerTail) (peerReplyText peer).toList =
        some peer := by
      rw [peerReplyText_between, between_spliced (List.all_eq_true.mpr hraw),
        String.ofList_toList]
    simp only [plainGlib, hpeer]
  quoted text peer h := by
    simp only [plainGlib] at h
    split at h
    · rename_i found hfound
      simp only [ParsedText.value.injEq, Json.object.injEq, List.cons.injEq, Prod.mk.injEq,
        Json.string.injEq, true_and, and_true] at h
      subst h
      obtain ⟨htext, hplain⟩ := between_eq_some hfound
      refine ⟨peerHead, '\x22', found.toList, peerTail, .inl rfl, ?_, spells_of_plain ?_⟩
      · rw [htext]
        simp only [List.append_assoc, List.cons_append, List.nil_append]
      · exact List.all_eq_true.mp hplain
    · split at h
      · simp at h
      · split_ifs at h
        simp at h

/-- The values of `client_listener_new` and `colod_main_new`. -/
def managementNew : Management :=
  ⟨none, some "", false, false, none, false, false, false, false, false, false⟩

def request (command : String) (members : Members) : ColodQmpResult :=
  ⟨("exec-colod", .string command) :: members, ""⟩

theorem management_values_iff_plain :
    Answers plainGlib { managementNew with store := some (.object []), peerYellow := true }
        (request "query-store" []) (.object []) ∧
      (SetsPeerRight plainGlib managementNew (request "set-peer" [("peer", .string "node2")]) ↔
        ∀ node, (request "set-peer" [("peer", .string "node2")]).members.lookup "peer" = some node →
          ∃ peer, node = .string peer ∧ ∀ c ∈ peer.toList, plain c = true ∧ c ≠ '\n') := by
  constructor
  · apply (management_values_iff plainGlib_reads managementNew).1
      (request "set-store" [("store", .object [])]) (.object []) [.main (.peerYellow true)]
    · rfl
    · rfl
    · exact ⟨by decide, plainGlib_reads.empty⟩
    · have hset : managementStep plainGlib managementNew
          (.request (request "set-store" [("store", .object [])])) =
            some { managementNew with store := some (.object []) } := by
        have hcommand : execColod (request "set-store" [("store", .object [])]) =
            some .setStore := rfl
        simp only [managementStep, handleRequest_command hcommand, handleCommand, handleSetStore,
          createReply, parseReply_object plainGlib_reads.empty]
        rfl
      exact run_cons_eq_some.mpr ⟨_, hset, rfl⟩
    · simp [SetsStore]
    · rfl
  · exact (management_values_iff plainGlib_reads managementNew).2 _ rfl

/-- A peer with a quote does not come back, and a number is not rejected. -/
theorem quote_and_number_wrong :
    ¬ SetsPeerRight plainGlib managementNew (request "set-peer" [("peer", .string "node\"2")]) ∧
      ¬ SetsPeerRight plainGlib managementNew (request "set-peer" [("peer", .number "2")]) := by
  rw [setsPeerRight_iff plainGlib_reads rfl, setsPeerRight_iff plainGlib_reads rfl]
  constructor
  · intro h
    obtain ⟨peer, hpeer, hplain⟩ := h _ rfl
    cases hpeer
    exact absurd (hplain '\x22' (by decide)).1 (by decide)
  · intro h
    obtain ⟨peer, hpeer, -⟩ := h _ rfl
    cases hpeer

end ManagementValues
end ColoDaemon
