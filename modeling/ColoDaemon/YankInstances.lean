import ColoDaemon.Json
import Mathlib.Data.List.Infix

/-!
# The instances of a yank

`handle_set_yank` takes any array and `qmp_set_yank_instances` keeps the last one. A yank picks
from the reply to `query-yank` the instances that match one of its templates. The assertions on the
way are about the array and about each template that comes up before a match.
-/

namespace ColoDaemon

def qmpSetYankInstances (instances : Json) : Option Json := some instances

/-- The array that is kept, and the reply: the text of `return`, or an error message. -/
def handleSetYank (yankInstances : Option Json) (request : Members) :
    Option Json × Except String String :=
  match getMemberNode request "instances" with
  | none => (yankInstances, .error "Member 'instances' missing")
  | some instances =>
    if instances.isArray then (qmpSetYankInstances instances, .ok "\x7b\x7d")
    else (yankInstances, .error "Member 'instances' must be an array")

variable (lib : JsonGlib)

/-- The loop of `pick_yank_instances` over the elements of the reply. -/
def pickLoop (yankMatches : Json) (output : List Json) : List Json → Option (List Json)
  | [] => some output
  | element :: rest =>
    match objectMatchesMatchArray lib element yankMatches with
    | none => none
    | some true => pickLoop yankMatches (output ++ [element]) rest
    | some false => pickLoop yankMatches output rest

def pickYankInstances (result : Members) (yankMatches : Option Json) : Option String :=
  match yankMatches with
  | none => none
  | some yankMatches =>
    if yankMatches.isArray then
      let resultArray := ((getMemberNode result "return").map Json.elements).getD []
      (pickLoop lib yankMatches [] resultArray).map fun output => lib.toText (.array output)
    else none

namespace YankInstances

/-- The array of a request that the daemon accepts. -/
def accepted (request : Members) : Option (List Json) :=
  match request.lookup "instances" with
  | some (.array templates) => some templates
  | _ => none

/-- The template has all its members in the instance, with equal values. -/
def Selects (object : Members) (template : Json) : Prop :=
  ∃ members, template = .object members ∧
    ∀ m ∈ members, ∃ node, object.lookup m.1 = some node ∧ lib.equal node m.2 = true

variable {lib}

theorem selects_object {object members : Members} :
    Selects lib object (.object members) ↔ membersMatch lib object members = true := by
  rw [membersMatch_iff]
  constructor
  · rintro ⟨_, hmembers, hall⟩
    cases hmembers
    exact hall
  · intro hall
    exact ⟨members, rfl, hall⟩

theorem not_selects {object : Members} {template : Json} (h : template.isObject = false) :
    ¬ Selects lib object template := by
  rintro ⟨members, rfl, -⟩
  cases h

instance decidableSelects (object : Members) (template : Json) :
    Decidable (Selects lib object template) :=
  match template with
  | .object _ => decidable_of_iff _ selects_object.symm
  | .null | .bool _ | .number _ | .string _ | .array _ => .isFalse (not_selects rfl)

variable (lib)

variable {lib}

end YankInstances
end ColoDaemon
