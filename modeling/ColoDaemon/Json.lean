import Mathlib.Data.List.Basic

/-!
# JSON nodes

The nodes of json-glib, the functions of `json_util.c` on them and `qmp_parse_result`. The library
itself is a parameter: `JsonGlib` is its parser, its generator and its comparison of two nodes. A
failed assertion is `none`.
-/

namespace ColoDaemon

/-- A node. A number is kept as `json_to_string` prints it. -/
inductive Json
  | null
  | bool (b : Bool)
  | number (text : String)
  | string (s : String)
  | array (elements : List Json)
  | object (members : List (String × Json))

/-- The members of an object. -/
abbrev Members := List (String × Json)

/-- The result of `json_from_string`; `nothing` is `NULL` without an error, for a text with no
value in it. -/
inductive ParsedText
  | nothing
  | unparsable (message : String)
  | value (root : Json)

structure JsonGlib where
  fromString : String → ParsedText
  toText : Json → String
  equal : Json → Json → Bool

namespace Json

def isObject : Json → Bool
  | .object _ => true
  | _ => false

def isArray : Json → Bool
  | .array _ => true
  | _ => false

/-- `json_node_get_array` and its elements; there are none in a node of another type. -/
def elements : Json → List Json
  | .array elements => elements
  | _ => []

/-- `json_node_get_string`. -/
def getString : Json → Option String
  | .string s => some s
  | _ => none

end Json

def hasMember (object : Members) (member : String) : Bool := (object.lookup member).isSome

def getMemberNode (object : Members) (member : String) : Option Json := object.lookup member

/-- `NULL` also if the member is not a string. -/
def getMemberStr (object : Members) (member : String) : Option String :=
  (object.lookup member).bind Json.getString

variable (lib : JsonGlib)

/-- The loop of `object_matches` over the members of `match`. -/
def membersMatch (object : Members) : Members → Bool
  | [] => true
  | (name, value) :: rest =>
    match object.lookup name with
    | none => false
    | some node => if lib.equal node value then membersMatch object rest else false

def objectMatches (node template : Json) : Option Bool :=
  match template with
  | .object members =>
    match node with
    | .object object => some (membersMatch lib object members)
    | _ => some false
  | _ => none

/-- The loop of `object_matches_match_array`. -/
def matchesSome (node : Json) : List Json → Option Bool
  | [] => some false
  | template :: rest =>
    match objectMatches lib node template with
    | none => none
    | some true => some true
    | some false => matchesSome node rest

def objectMatchesMatchArray (node templates : Json) : Option Bool :=
  match templates with
  | .array elements => matchesSome lib node elements
  | _ => none

inductive GErrorCode
  | json
  | channel
  | fatal
  | timeout
  | qmp
  | eof
  deriving DecidableEq, Repr

structure GError where
  code : GErrorCode
  message : String
  deriving DecidableEq, Repr

def GError.prefixed (text : String) (error : GError) : GError :=
  { error with message := text ++ error.message }

/-- A line that was parsed to an object. -/
structure ColodQmpResult where
  members : Members
  line : String

/-- `NULL` with the `GError` that is set, if one is. -/
def qmpParseResult (line : String) : Except (Option GError) ColodQmpResult :=
  match lib.fromString line with
  | .nothing => .error none
  | .unparsable message => .error (some ⟨.json, message⟩)
  | .value (.object members) => .ok ⟨members, line⟩
  | .value _ => .error (some ⟨.fatal, "Result is not a json object: " ++ line⟩)

variable {lib}

theorem membersMatch_iff {object members : Members} :
    membersMatch lib object members = true ↔
      ∀ m ∈ members, ∃ node, object.lookup m.1 = some node ∧ lib.equal node m.2 = true := by
  induction members with
  | nil => simp [membersMatch]
  | cons m rest ih =>
    obtain ⟨name, value⟩ := m
    rw [List.forall_mem_cons, ← ih, membersMatch]
    cases hlookup : object.lookup name with
    | none => simp
    | some node =>
      by_cases hequal : lib.equal node value = true
      · simp [hequal]
      · simp [hequal]

theorem qmpParseResult_ok {line : String} {result : ColodQmpResult} :
    qmpParseResult lib line = .ok result ↔
      lib.fromString line = .value (.object result.members) ∧ result.line = line := by
  unfold qmpParseResult
  constructor
  · intro h
    split at h
    · cases h
    · cases h
    · rename_i hvalue
      cases h
      exact ⟨hvalue, rfl⟩
    · cases h
  · rintro ⟨hvalue, rfl⟩
    rw [hvalue]

/-- The parser fails without an error on a text with no value in it, and only there. -/
theorem qmpParseResult_error_none {line : String} :
    qmpParseResult lib line = .error none ↔ lib.fromString line = .nothing := by
  unfold qmpParseResult
  constructor
  · intro h
    split at h
    · assumption
    all_goals cases h
  · intro h
    rw [h]

end ColoDaemon
