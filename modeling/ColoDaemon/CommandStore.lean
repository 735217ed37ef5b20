import ColoDaemon.Daemon
import ColoDaemon.RefCount
import Mathlib.Data.List.Forall2

/-!
# The command tables as JSON nodes

`QmpCommands` holds one reference to the node of each table. A request is parsed into nodes of its
own, of which `handleSet` keeps the array and drops the rest. `Holds` says what the tables contain;
every request keeps it, and the array that a request replaces is gone afterwards.
-/

namespace ColoDaemon
open RefCount

/-- A JSON node with the addresses of the nodes it owns; a value is kept as `json_to_string`
prints it. -/
inductive JsonNode
  | value (text : String)
  | array (elements : List ℕ)
  | object (members : List (String × ℕ))

def JsonNode.children : JsonNode → List ℕ
  | .value _ => []
  | .array elements => elements
  | .object members => members.map (·.2)

/-- The member `commands` of a request line. -/
inductive CommandsMember
  | array (elements : List String)
  | other (text : String)
  deriving DecidableEq, Repr

/-- A request line of a client that sets a table. -/
structure SetRequest where
  commands : Option CommandsMember
  deriving DecidableEq, Repr

/-- The nodes that exist and the four members of `QmpCommands`. -/
structure CommandStore where
  heap : Heap JsonNode
  node : CommandTable → ℕ

def allocValues : Heap JsonNode → List String → Heap JsonNode × List ℕ
  | heap, [] => (heap, [])
  | heap, text :: texts =>
    let (heap, element) := heap.alloc (.value text)
    let (heap, elements) := allocValues heap texts
    (heap, element :: elements)

/-- The nodes of a request and the address of its root. -/
def jsonFromString (heap : Heap JsonNode) (request : SetRequest) : Heap JsonNode × ℕ :=
  match request.commands with
  | none => heap.alloc (.object [])
  | some (.other text) =>
    let (heap, commands) := heap.alloc (.value text)
    heap.alloc (.object [("commands", commands)])
  | some (.array texts) =>
    let (heap, elements) := allocValues heap texts
    let (heap, commands) := heap.alloc (.array elements)
    heap.alloc (.object [("commands", commands)])

def getCommands (heap : Heap JsonNode) (request : ℕ) : Except String ℕ :=
  match heap.read request with
  | some (.object members) =>
    match members.lookup "commands" with
    | none => .error "Member 'commands' missing"
    | some commands =>
      match heap.read commands with
      | some (.array _) => .ok commands
      | _ => .error "Member 'commands' must be an array"
  | _ => .error "Member 'commands' missing"

/-- `json_array_get_element` and `json_to_string`; none if one of the nodes is gone. -/
def element (heap : Heap JsonNode) (array i : ℕ) : Option String :=
  match heap.read array with
  | some (.array elements) =>
    match elements[i]? with
    | some node =>
      match heap.read node with
      | some (.value text) => some text
      | _ => none
    | none => none
  | _ => none

namespace CommandStore

def qmpCommandsNew : CommandStore :=
  let (heap, migrationStart) := Heap.alloc [] (.array [])
  let (heap, migrationSwitchover) := heap.alloc (.array [])
  let (heap, failoverPrimary) := heap.alloc (.array [])
  let (heap, failoverSecondary) := heap.alloc (.array [])
  { heap
    node := fun table =>
      match table with
      | .migrationStart => migrationStart
      | .migrationSwitchover => migrationSwitchover
      | .failoverPrimary => failoverPrimary
      | .failoverSecondary => failoverSecondary }

def qmpCommandsSet (this : CommandStore) (table : CommandTable) (commands : ℕ) : CommandStore :=
  { heap := (this.heap.unref JsonNode.children (this.node table)).ref commands
    node := Function.update this.node table commands }

def qmpCommandsSetMigrationStart (this : CommandStore) := qmpCommandsSet this .migrationStart

def qmpCommandsSetMigrationSwitchover (this : CommandStore) :=
  qmpCommandsSet this .migrationSwitchover

def qmpCommandsSetFailoverPrimary (this : CommandStore) := qmpCommandsSet this .failoverPrimary

def qmpCommandsSetFailoverSecondary (this : CommandStore) := qmpCommandsSet this .failoverSecondary

/-- The handler of a request that sets a table with `set`, and `qmp_result_free` of the request. -/
def handleSet (set : CommandStore → ℕ → CommandStore) (this : CommandStore)
    (request : SetRequest) : CommandStore × Except String Unit :=
  let (heap, root) := jsonFromString this.heap request
  match getCommands heap root with
  | .error message =>
    ({ this with heap := heap.unref JsonNode.children root }, .error message)
  | .ok commands =>
    let this := set { this with heap } commands
    ({ this with heap := this.heap.unref JsonNode.children root }, .ok ())

def handleSetMigrationStart := handleSet qmpCommandsSetMigrationStart

def handleSetMigrationSwitchover := handleSet qmpCommandsSetMigrationSwitchover

def handleSetPrimaryFailover := handleSet qmpCommandsSetFailoverPrimary

def handleSetSecondaryFailover := handleSet qmpCommandsSetFailoverSecondary

def handler : CommandTable → CommandStore → SetRequest → CommandStore × Except String Unit
  | .migrationStart => handleSetMigrationStart
  | .migrationSwitchover => handleSetMigrationSwitchover
  | .failoverPrimary => handleSetPrimaryFailover
  | .failoverSecondary => handleSetSecondaryFailover

theorem handler_eq (table : CommandTable) :
    handler table = handleSet fun this => qmpCommandsSet this table := by
  cases table <;> rfl

/-- The references of the tables. -/
def held (this : CommandStore) : List ℕ :=
  [this.node .migrationStart, this.node .migrationSwitchover, this.node .failoverPrimary,
    this.node .failoverSecondary]

theorem node_mem_held (this : CommandStore) (table : CommandTable) : this.node table ∈ this.held := by
  cases table <;> simp [held]

theorem mem_held {this : CommandStore} {a : ℕ} (ha : a ∈ this.held) :
    ∃ table, a = this.node table := by
  simp only [held, List.mem_cons, List.not_mem_nil, or_false] at ha
  rcases ha with h | h | h | h <;> exact ⟨_, h⟩

/-- The references other than that of one table. -/
def heldBut (this : CommandStore) (table : CommandTable) : List ℕ :=
  match table with
  | .migrationStart =>
    [this.node .migrationSwitchover, this.node .failoverPrimary, this.node .failoverSecondary]
  | .migrationSwitchover =>
    [this.node .migrationStart, this.node .failoverPrimary, this.node .failoverSecondary]
  | .failoverPrimary =>
    [this.node .migrationStart, this.node .migrationSwitchover, this.node .failoverSecondary]
  | .failoverSecondary =>
    [this.node .migrationStart, this.node .migrationSwitchover, this.node .failoverPrimary]

theorem held_perm (this : CommandStore) (table : CommandTable) :
    this.held.Perm (this.node table :: this.heldBut table) := by
  rw [List.perm_iff_count]
  intro a
  cases table <;> simp only [held, heldBut, List.count_cons, List.count_nil] <;> omega

theorem heldBut_update {this : CommandStore} {table : CommandTable} {heap : Heap JsonNode} {a : ℕ} :
    heldBut ⟨heap, Function.update this.node table a⟩ table = this.heldBut table := by
  cases table <;> simp [heldBut]

end CommandStore

/-! ### Reading an array -/

variable {heap heap' : Heap JsonNode} {held : List ℕ} {a : ℕ} {texts : List String}

/-- At `a` there is an array of values with these texts. -/
def Spells (heap : Heap JsonNode) (a : ℕ) (texts : List String) : Prop :=
  ∃ elements, heap.read a = some (.array elements) ∧
    List.Forall₂ (fun e text => heap.read e = some (.value text)) elements texts

theorem element_of_spells (h : Spells heap a texts) (i : ℕ) : element heap a i = texts[i]? := by
  obtain ⟨elements, hread, hall⟩ := h
  simp only [element, hread]
  clear hread
  induction hall generalizing i with
  | nil => simp
  | cons he _ ih =>
    cases i with
    | zero => simp [he]
    | succ i => exact ih i

theorem exists_text {elements : List ℕ} {e : ℕ}
    (hall : List.Forall₂ (fun e text => heap.read e = some (.value text)) elements texts)
    (he : e ∈ elements) : ∃ text, heap.read e = some (.value text) := by
  induction hall with
  | nil => cases he
  | cons hhead _ ih =>
    rcases List.mem_cons.mp he with rfl | hrest
    · exact ⟨_, hhead⟩
    · exact ih hrest

/-- What still exists reads as before. -/
def Retains (heap heap' : Heap JsonNode) : Prop :=
  ∀ b value, heap'.read b = some value → heap.read b = some value

theorem Retains.read (h : Retains heap heap') (hc : ∃ c, heap'.cell a = some c) :
    heap'.read a = heap.read a := by
  obtain ⟨c, hc⟩ := hc
  have hread : heap'.read a = some c.value := by rw [Heap.read, hc]; rfl
  rw [hread, h a _ hread]

theorem Spells.retained (h : Spells heap a texts) (hretains : Retains heap heap')
    (hs : Heap.Sound JsonNode.children heap' held) (ha : a ∈ held) : Spells heap' a texts := by
  obtain ⟨elements, hread, hall⟩ := h
  have hread' := (hretains.read (hs.exists_of_held ha)).trans hread
  refine ⟨elements, hread', ?_⟩
  have hsub : ∀ e ∈ elements, heap'.read e = heap.read e := fun e he =>
    hretains.read (hs.exists_of_child hread' he)
  clear hread hread'
  induction hall with
  | nil => exact .nil
  | cons he _ ih =>
    obtain ⟨hhead, hrest⟩ := List.forall_mem_cons.mp hsub
    exact .cons (hhead.trans he) (ih hrest)

/-- Everything that is read stays as it is. -/
theorem Spells.mono (h : Spells heap a texts)
    (hkeeps : ∀ b value, heap.read b = some value → heap'.read b = some value) :
    Spells heap' a texts := by
  obtain ⟨elements, hread, hall⟩ := h
  exact ⟨elements, hkeeps _ _ hread, hall.imp fun _ _ he => hkeeps _ _ he⟩

theorem Retains.unref (heap : Heap JsonNode) (a : ℕ) :
    Retains heap (heap.unref JsonNode.children a) := fun _ _ => Heap.read_of_unref

theorem Retains.ref (heap : Heap JsonNode) (a : ℕ) : Retains heap (heap.ref a) := by
  intro b value hb
  rwa [Heap.read_ref] at hb

theorem Retains.trans {heap'' : Heap JsonNode} (h : Retains heap heap')
    (h' : Retains heap' heap'') : Retains heap heap'' := fun b value hb => h b value (h' b value hb)

/-! ### Parsing a request -/

/-- All children of the value are plain values. -/
def Flat (heap : Heap JsonNode) (value : JsonNode) : Prop :=
  ∀ c ∈ value.children, ∃ text, heap.read c = some (.value text)

theorem Flat.retained {value : JsonNode} (h : Flat heap value) (hretains : Retains heap heap')
    (hs : Heap.Sound JsonNode.children heap' held) (ha : heap'.read a = some value) :
    Flat heap' value := by
  intro c hc
  obtain ⟨text, hread⟩ := h c hc
  exact ⟨text, (hretains.read (hs.exists_of_child ha hc)).trans hread⟩

/-- `heap'` is `heap` with further nodes; `root` is the last of them. -/
structure Parsed (heap heap' : Heap JsonNode) (root : ℕ) (held : List ℕ) : Prop where
  sound : Heap.Sound JsonNode.children heap' (root :: held)
  keeps : ∀ b value, heap.read b = some value → heap'.read b = some value
  last : root + 1 = heap'.length
  fresh : heap.length ≤ root
  flat : ∀ b value, heap'.read b = some value → b ≠ root →
    heap.read b = some value ∨ heap.length ≤ b ∧ Flat heap' value

theorem allocValues_spec (hs : Heap.Sound JsonNode.children heap held) (texts : List String) :
    Heap.Sound JsonNode.children (allocValues heap texts).1 ((allocValues heap texts).2 ++ held) ∧
      List.Forall₂ (fun e text => (allocValues heap texts).1.read e = some (.value text))
        (allocValues heap texts).2 texts ∧
      (∀ b value, heap.read b = some value → (allocValues heap texts).1.read b = some value) ∧
      (∀ b value, (allocValues heap texts).1.read b = some value →
        heap.read b = some value ∨ heap.length ≤ b ∧ ∃ text, value = .value text) ∧
      heap.length ≤ (allocValues heap texts).1.length := by
  induction texts generalizing heap held with
  | nil => exact ⟨hs, .nil, fun _ _ h => h, fun _ _ h => .inl h, Nat.le_refl _⟩
  | cons text texts ih =>
    have hfirst : Heap.Sound JsonNode.children (heap.alloc (.value text)).1
        ((heap.alloc (.value text)).2 :: held) := Heap.sound_alloc hs
    obtain ⟨hsound, hall, hkeeps, hnew, hlength⟩ := ih hfirst
    have hone : (heap.alloc (.value text)).1.length = heap.length + 1 := by
      simp [Heap.alloc]
    refine ⟨hsound.perm List.perm_middle, ?_, ?_, ?_, ?_⟩
    · exact .cons (hkeeps _ _ (Heap.read_alloc_self heap _)) hall
    · intro b value hb
      exact hkeeps b value (Heap.read_alloc_of_some hb _)
    · intro b value hb
      rcases hnew b value hb with hold | hvalue
      · by_cases hb' : b = heap.length
        · subst hb'
          rw [Heap.read_alloc_self] at hold
          exact .inr ⟨Nat.le_refl _, text, (Option.some.inj hold).symm⟩
        · rw [Heap.read, Heap.cell_alloc, if_neg hb'] at hold
          exact .inl hold
      · exact .inr ⟨by omega, hvalue.2⟩
    · simp only [allocValues]
      omega

/-- The root of a request on top of the nodes it owns. -/
theorem parsed_root {mid : Heap JsonNode} (root : JsonNode)
    (hs : Heap.Sound JsonNode.children mid (root.children ++ held))
    (hkeeps : ∀ b value, heap.read b = some value → mid.read b = some value)
    (hlength : heap.length ≤ mid.length)
    (hflat : ∀ b value, mid.read b = some value →
      heap.read b = some value ∨ heap.length ≤ b ∧ Flat mid value) :
    Parsed heap (mid.alloc root).1 (mid.alloc root).2 held := by
  refine ⟨Heap.sound_alloc hs, ?_, by simp [Heap.alloc], hlength, ?_⟩
  · intro b value hb
    exact Heap.read_alloc_of_some (hkeeps b value hb) root
  · intro b value hb hne
    have hne' : b ≠ mid.length := hne
    rw [Heap.read, Heap.cell_alloc, if_neg hne'] at hb
    refine (hflat b value hb).imp_right ?_
    rintro ⟨hle, hf⟩
    refine ⟨hle, ?_⟩
    intro c hc
    obtain ⟨text, hread⟩ := hf c hc
    exact ⟨text, Heap.read_alloc_of_some hread root⟩

theorem parsed_array (hs : Heap.Sound JsonNode.children heap held) (texts : List String) :
    ∃ heap' root commands, jsonFromString heap ⟨some (.array texts)⟩ = (heap', root) ∧
      getCommands heap' root = .ok commands ∧ Parsed heap heap' root held ∧
      Spells heap' commands texts ∧ heap'.read root = some (.object [("commands", commands)]) ∧
      heap.length ≤ commands ∧ commands ≠ root := by
  obtain ⟨hsound, hall, hkeeps, hnew, hlength⟩ := allocValues_spec hs texts
  generalize hvalues : allocValues heap texts = values at hsound hall hkeeps hnew hlength
  obtain ⟨mid, elements⟩ := values
  dsimp only at hsound hall hkeeps hnew hlength
  have harray : Heap.Sound JsonNode.children (mid.alloc (.array elements)).1
      (mid.length :: held) := Heap.sound_alloc hsound
  have hread := Heap.read_alloc_self mid (.array elements)
  have hkeeps' : ∀ b value, heap.read b = some value →
      (mid.alloc (.array elements)).1.read b = some value := fun b value hb =>
    Heap.read_alloc_of_some (hkeeps b value hb) _
  have hspells : Spells (mid.alloc (.array elements)).1 mid.length texts :=
    ⟨elements, hread, hall.imp fun _ _ he => Heap.read_alloc_of_some he _⟩
  have hparsed : Parsed heap ((mid.alloc (.array elements)).1.alloc
      (.object [("commands", mid.length)])).1 (mid.alloc (.array elements)).1.length held := by
    apply parsed_root _ harray hkeeps'
    · simp only [Heap.alloc, List.length_append, List.length_singleton]
      omega
    · intro b value hb
      by_cases hb' : b = mid.length
      · subst hb'
        rw [hread] at hb
        cases hb
        refine .inr ⟨hlength, ?_⟩
        intro c hc
        obtain ⟨text, hc'⟩ := exists_text hall hc
        exact ⟨text, Heap.read_alloc_of_some hc' _⟩
      · rw [Heap.read, Heap.cell_alloc, if_neg hb'] at hb
        refine (hnew b value hb).imp_right ?_
        rintro ⟨hle, text, rfl⟩
        refine ⟨hle, ?_⟩
        intro c hc
        cases hc
  have hroot := Heap.read_alloc_self (mid.alloc (.array elements)).1
    (.object [("commands", mid.length)])
  refine ⟨_, _, mid.length, ?_, ?_, hparsed, ?_, hroot, hlength, ?_⟩
  · simp [jsonFromString, hvalues, Heap.alloc]
  · simp only [getCommands, hroot, List.lookup_cons_self,
      Heap.read_alloc_of_some hread]
  · exact hspells.mono fun b value hb => Heap.read_alloc_of_some hb _
  · simp only [Heap.alloc, List.length_append, List.length_singleton]
    omega

/-- A request without a command array. -/
theorem parsed_error (hs : Heap.Sound JsonNode.children heap held) (request : SetRequest)
    (hrequest : ∀ texts, request.commands ≠ some (.array texts)) :
    ∃ heap' root message, jsonFromString heap request = (heap', root) ∧
      getCommands heap' root = .error message ∧ Parsed heap heap' root held := by
  obtain ⟨commands⟩ := request
  rcases commands with _ | texts | text
  · have hroot := Heap.read_alloc_self heap (.object [])
    refine ⟨_, _, "Member 'commands' missing", rfl, ?_, ?_⟩
    · simp only [getCommands, Heap.alloc] at hroot ⊢
      simp only [hroot, List.lookup_nil]
    · exact parsed_root _ hs (fun _ _ h => h) (Nat.le_refl _) fun _ _ h => .inl h
  · exact absurd rfl (hrequest texts)
  · have hvalue : Heap.Sound JsonNode.children (heap.alloc (.value text)).1
        (heap.length :: held) := Heap.sound_alloc hs
    have hread := Heap.read_alloc_self heap (.value text)
    have hroot := Heap.read_alloc_self (heap.alloc (.value text)).1
      (.object [("commands", heap.length)])
    refine ⟨_, _, "Member 'commands' must be an array", rfl, ?_, ?_⟩
    · have hread' := Heap.read_alloc_of_some hread (.object [("commands", heap.length)])
      simp only [getCommands, Heap.alloc] at hroot hread' ⊢
      simp only [hroot, hread', List.lookup_cons_self]
    · apply parsed_root (.object [("commands", heap.length)]) hvalue
      · exact fun b value hb => Heap.read_alloc_of_some hb _
      · simp [Heap.alloc]
      · intro b value hb
        by_cases hb' : b = heap.length
        · subst hb'
          rw [hread] at hb
          cases hb
          refine .inr ⟨Nat.le_refl _, ?_⟩
          intro c hc
          cases hc
        · rw [Heap.read, Heap.cell_alloc, if_neg hb'] at hb
          exact .inl hb

/-! ### What the tables contain -/

/-- The tables contain `arrays`, and nothing else but their elements exists. -/
structure Holds (this : CommandStore) (arrays : CommandTable → List String) : Prop where
  sound : Heap.Sound JsonNode.children this.heap this.held
  spells : ∀ table, Spells this.heap (this.node table) (arrays table)
  distinct : Function.Injective this.node
  flat : ∀ b value, this.heap.read b = some value → Flat this.heap value

variable {this : CommandStore} {arrays : CommandTable → List String}

theorem holds_new : Holds .qmpCommandsNew fun _ => [] := by
  have hone {heap : Heap JsonNode} {held : List ℕ} (h : Heap.Sound JsonNode.children heap held) :
      Heap.Sound JsonNode.children (heap.alloc (.array [])).1 (heap.length :: held) :=
    Heap.sound_alloc h
  have hread : ∀ table, Heap.read (CommandStore.qmpCommandsNew).heap
      (CommandStore.qmpCommandsNew.node table) = some (.array []) := by
    intro table
    cases table <;> rfl
  refine ⟨?_, ?_, ?_, ?_⟩
  · exact (hone (hone (hone (hone Heap.sound_nil)))).perm (List.reverse_perm [0, 1, 2, 3])
  · exact fun table => ⟨[], hread table, .nil⟩
  · intro x y
    cases x <;> cases y <;> decide
  · intro b value hb c hc
    have hmem : ∀ cell ∈ CommandStore.qmpCommandsNew.heap, cell = some ⟨1, .array []⟩ := by
      simp [CommandStore.qmpCommandsNew, Heap.alloc]
    obtain ⟨d, hd, rfl⟩ := Heap.read_eq_some.mp hb
    have hsome := hmem _ (List.mem_of_getElem? (Heap.getElem?_of_cell hd))
    cases hsome
    cases hc

/-- The last node is gone with the only reference to it. -/
theorem not_exists_last {root : ℕ} (hs : Heap.Sound JsonNode.children heap held)
    (hlast : root + 1 = heap.length) (hheld : root ∉ held) : heap.cell root = none := by
  by_contra hc
  obtain ⟨c, hc⟩ := Option.ne_none_iff_exists'.mp hc
  rcases hs.exists_iff.mp ⟨c, hc⟩ with hroot | ⟨b, d, hd, hroot⟩
  · exact hheld hroot
  · have hlt := hs.descending b d hd root hroot
    have hb := Heap.lt_length hd
    omega

/-- The request is dropped again. `heap'` are the nodes while it was handled. -/
theorem holds_of_release {heap' : Heap JsonNode} {root : ℕ} {node : CommandTable → ℕ}
    (hs : Heap.Sound JsonNode.children heap (root :: CommandStore.held ⟨heap, node⟩))
    (hlast : root + 1 = heap.length) (hheld : ∀ table, root ≠ node table)
    (hretains : Retains heap' heap) (hspells : ∀ table, Spells heap' (node table) (arrays table))
    (hdistinct : Function.Injective node)
    (hflat : ∀ b value, heap'.read b = some value → b ≠ root → Flat heap' value) :
    Holds ⟨heap.unref JsonNode.children root, node⟩ arrays := by
  have hsound : Heap.Sound JsonNode.children (heap.unref JsonNode.children root)
      (CommandStore.held ⟨heap.unref JsonNode.children root, node⟩) := Heap.sound_unref hs
  have hretains' := hretains.trans (.unref heap root)
  refine ⟨hsound, ?_, hdistinct, ?_⟩
  · intro table
    exact (hspells table).retained hretains' hsound
      (CommandStore.node_mem_held ⟨_, node⟩ table)
  · intro b value hb
    have hne : b ≠ root := by
      rintro rfl
      have hnone := not_exists_last hsound (by rw [Heap.length_unref]; exact hlast) (by
        intro hmem
        obtain ⟨table, htable⟩ := CommandStore.mem_held hmem
        exact hheld table htable)
      rw [Heap.read, hnone] at hb
      cases hb
    exact (hflat b value (hretains' b value hb) hne).retained hretains' hsound hb

/-- Old nodes are changed by no request, and addresses are not used again. -/
structure Grown (heap heap' : Heap JsonNode) : Prop where
  longer : heap.length ≤ heap'.length
  old : ∀ b value, b < heap.length → heap'.read b = some value → heap.read b = some value

theorem Grown.gone (h : Grown heap heap') (ha : a < heap.length) (hc : heap.cell a = none) :
    a < heap'.length ∧ heap'.cell a = none := by
  refine ⟨Nat.lt_of_lt_of_le ha h.longer, ?_⟩
  by_contra hsome
  obtain ⟨c, hc'⟩ := Option.ne_none_iff_exists'.mp hsome
  have hread := h.old a c.value ha (by rw [Heap.read, hc']; rfl)
  rw [Heap.read, hc] at hread
  cases hread

theorem Parsed.grown {root : ℕ} {held' : List ℕ} (h : Parsed heap heap' root held')
    {heap'' : Heap JsonNode} (hlength : heap''.length = heap'.length)
    (hretains : Retains heap' heap'') : Grown heap heap'' := by
  have hlast := h.last
  have hfresh := h.fresh
  refine ⟨by omega, ?_⟩
  intro b value hb hread
  rcases h.flat b value (hretains b value hread) (by omega) with hold | ⟨hle, -⟩
  · exact hold
  · omega

/-- A request without a command array changes no table. -/
theorem handler_error (hh : Holds this arrays) (table : CommandTable) (request : SetRequest)
    (hrequest : ∀ texts, request.commands ≠ some (.array texts)) :
    ∃ heap message, CommandStore.handler table this request =
      ({ this with heap }, .error message) ∧ Holds { this with heap } arrays ∧
        Grown this.heap heap := by
  obtain ⟨heap', root, message, hjson, hget, hparsed⟩ := parsed_error hh.sound request hrequest
  refine ⟨heap'.unref JsonNode.children root, message, ?_, ?_,
    hparsed.grown (Heap.length_unref _ _) (.unref _ _)⟩
  · simp only [CommandStore.handler_eq, CommandStore.handleSet, hjson, hget]
  · apply holds_of_release hparsed.sound hparsed.last _ (fun _ _ h => h) _ hh.distinct
    · intro b value hb hne
      rcases hparsed.flat b value hb hne with hold | ⟨-, hflat⟩
      · intro c hc
        obtain ⟨text, hread⟩ := hh.flat b value hold c hc
        exact ⟨text, hparsed.keeps c _ hread⟩
      · exact hflat
    · intro table'
      obtain ⟨c, hc⟩ := hh.sound.exists_of_held (this.node_mem_held table')
      have hlt := Heap.lt_length hc
      have hfresh := hparsed.fresh
      have hne : root ≠ this.node table' := by omega
      exact hne
    · exact fun table' => (hh.spells table').mono hparsed.keeps

/-- A request with a command array: its node is installed and the one it replaces is gone. -/
theorem handler_array (hh : Holds this arrays) (table : CommandTable) (texts : List String) :
    ∃ heap commands, CommandStore.handler table this ⟨some (.array texts)⟩ =
      (⟨heap, Function.update this.node table commands⟩, .ok ()) ∧
      Holds ⟨heap, Function.update this.node table commands⟩
        (Function.update arrays table texts) ∧
      Grown this.heap heap ∧ heap.cell (this.node table) = none := by
  obtain ⟨heap', root, commands, hjson, hget, hparsed, hspells, hroot, hle, hne⟩ :=
    parsed_array hh.sound texts
  have hlt : ∀ table', this.node table' < this.heap.length := by
    intro table'
    obtain ⟨c, hc⟩ := hh.sound.exists_of_held (this.node_mem_held table')
    exact Heap.lt_length hc
  have hfresh := hparsed.fresh
  -- the reference of the table is dropped
  have hdropped : Heap.Sound JsonNode.children (heap'.unref JsonNode.children (this.node table))
      (root :: this.heldBut table) := by
    apply Heap.sound_unref
    apply hparsed.sound.perm
    exact ((this.held_perm table).cons root).trans (.swap _ _ _)
  have hretains := Retains.unref heap' (this.node table)
  have hroot' := (hretains.read (hdropped.exists_of_held List.mem_cons_self)).trans hroot
  -- the request still owns its array
  obtain ⟨c, hc⟩ := hdropped.exists_of_child hroot' (a := commands) (by simp [JsonNode.children])
  have hinstalled := Heap.sound_ref hdropped hc
  set heap := (heap'.unref JsonNode.children (this.node table)).ref commands with hheap
  have hretains' : Retains heap' heap := hretains.trans (.ref _ _)
  have hlength : heap.length = heap'.length := by
    rw [hheap, Heap.length_ref, Heap.length_unref]
  have hcommands : ∀ table', commands ≠ this.node table' := by
    intro table'
    have h := hlt table'
    omega
  have hsound : Heap.Sound JsonNode.children heap
      (root :: CommandStore.held ⟨heap, Function.update this.node table commands⟩) := by
    apply hinstalled.perm
    refine (List.Perm.swap _ _ _).trans (.cons root ?_)
    refine .trans ?_ (CommandStore.held_perm _ table).symm
    rw [CommandStore.heldBut_update]
    simp
  have hholds : Holds ⟨heap.unref JsonNode.children root,
      Function.update this.node table commands⟩ (Function.update arrays table texts) := by
    apply holds_of_release hsound _ _ hretains'
    · intro table'
      by_cases htable : table' = table
      · subst htable
        simpa using hspells
      · simpa [htable] using (hh.spells table').mono hparsed.keeps
    · intro x y hxy
      by_cases hx : x = table
      · by_cases hy : y = table
        · rw [hx, hy]
        · simp [hx, hy, hcommands y] at hxy
      · by_cases hy : y = table
        · simp [hx, hy, (hcommands x).symm] at hxy
        · simp only [Function.update_of_ne hx, Function.update_of_ne hy] at hxy
          exact hh.distinct hxy
    · intro b value hb hbroot
      rcases hparsed.flat b value hb hbroot with hold | ⟨-, hflat⟩
      · intro c hc
        obtain ⟨text, hread⟩ := hh.flat b value hold c hc
        exact ⟨text, hparsed.keeps c _ hread⟩
      · exact hflat
    · rw [hlength]
      exact hparsed.last
    · intro table'
      by_cases htable : table' = table
      · subst htable
        simpa using hne.symm
      · have h := hlt table'
        simp only [Function.update_of_ne htable]
        omega
  refine ⟨heap.unref JsonNode.children root, commands, ?_, hholds, ?_, ?_⟩
  · simp only [CommandStore.handler_eq, CommandStore.handleSet, hjson, hget,
      CommandStore.qmpCommandsSet, hheap]
  · apply hparsed.grown
    · rw [Heap.length_unref, hlength]
    · exact hretains'.trans (.unref _ _)
  · by_contra hsome
    obtain ⟨c, hc⟩ := Option.ne_none_iff_exists'.mp hsome
    have hold : Heap.read (heap.unref JsonNode.children root) (this.node table) =
        this.heap.read (this.node table) := by
      obtain ⟨elements, hread, -⟩ := hh.spells table
      rw [hread, ← hparsed.keeps _ _ hread]
      exact (hretains'.trans (.unref heap root)).read ⟨c, hc⟩
    obtain ⟨elements, hread, -⟩ := hh.spells table
    rcases hholds.sound.exists_iff.mp ⟨c, hc⟩ with hmem | ⟨b, d, hd, hchild⟩
    · obtain ⟨table', htable'⟩ := CommandStore.mem_held hmem
      by_cases htable : table' = table
      · subst htable
        simp [(hcommands table').symm] at htable'
      · simp only [Function.update_of_ne htable] at htable'
        exact htable (hh.distinct htable').symm
    · have hb : Heap.read (heap.unref JsonNode.children root) b = some d.value := by
        rw [Heap.read, hd]
        rfl
      obtain ⟨text, htext⟩ := hholds.flat b d.value hb _ hchild
      rw [hold, hread] at htext
      cases htext

end ColoDaemon
