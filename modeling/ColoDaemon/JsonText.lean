import ColoDaemon.Runs

/-!
# JSON texts

A reader of JSON that consumes one character at a time. It keeps the containers that are open and
what it expects next; member names must not be empty. A text is JSON if the reader ends after one
value. `Splices depth s` says that `s` can be put between the quotes of a string value in `depth`
nested objects.
-/

namespace JsonText
open Runs

inductive Container
  | object
  | array
  deriving DecidableEq, Repr

/-- The string that the reader is in. -/
inductive Part
  | value
  | emptyName
  | name
  deriving DecidableEq, Repr

inductive Literal
  | true
  | false
  | null
  deriving DecidableEq, Repr

inductive Mode
  | value
  | firstElement
  | firstName
  | nextName
  | colon
  | string (part : Part)
  | escape (part : Part)
  | hex (part : Part) (missing : ℕ)
  | word (literal : Literal) (read : ℕ)
  | minus
  | zero
  | integer
  | point
  | fraction
  | exponent
  | exponentSign
  | power
  | ended
  deriving DecidableEq, Repr

structure Reader where
  containers : List Container
  mode : Mode
  deriving DecidableEq, Repr

def blank (c : Char) : Bool := c = ' ' || c = '\t' || c = '\n' || c = '\r'

def control (c : Char) : Bool := c.toNat < 32

def hexDigit (c : Char) : Bool :=
  c.isDigit || ('a' ≤ c && c ≤ 'f') || ('A' ≤ c && c ≤ 'F')

def Part.grow : Part → Part
  | .emptyName => .name
  | part => part

def Part.close : Part → Option Mode
  | .value => some .ended
  | .emptyName => none
  | .name => some .colon

def Literal.text : Literal → List Char
  | .true => ['t', 'r', 'u', 'e']
  | .false => ['f', 'a', 'l', 's', 'e']
  | .null => ['n', 'u', 'l', 'l']

/-- The first character of a value. -/
def start (containers : List Container) (c : Char) : Option Reader :=
  if c = '\x7b' then some ⟨.object :: containers, .firstName⟩
  else if c = '[' then some ⟨.array :: containers, .firstElement⟩
  else if c = '\x22' then some ⟨containers, .string .value⟩
  else if c = '-' then some ⟨containers, .minus⟩
  else if c = '0' then some ⟨containers, .zero⟩
  else if c.isDigit then some ⟨containers, .integer⟩
  else if c = 't' then some ⟨containers, .word .true 1⟩
  else if c = 'f' then some ⟨containers, .word .false 1⟩
  else if c = 'n' then some ⟨containers, .word .null 1⟩
  else none

/-- A character after a value. -/
def after (containers : List Container) (c : Char) : Option Reader :=
  if blank c then some ⟨containers, .ended⟩
  else
    match containers with
    | [] => none
    | .object :: outer =>
      if c = ',' then some ⟨containers, .nextName⟩
      else if c = '\x7d' then some ⟨outer, .ended⟩
      else none
    | .array :: outer =>
      if c = ',' then some ⟨containers, .value⟩
      else if c = ']' then some ⟨outer, .ended⟩
      else none

/-- A character of a number that may end here, after the digits of its integer part. -/
def afterInteger (containers : List Container) (c : Char) : Option Reader :=
  if c = '.' then some ⟨containers, .point⟩
  else if c = 'e' ∨ c = 'E' then some ⟨containers, .exponent⟩
  else after containers c

def step (r : Reader) (c : Char) : Option Reader :=
  match r.mode with
  | .value => if blank c then some r else start r.containers c
  | .firstElement =>
    if blank c then some r
    else if c = ']' then after r.containers c
    else start r.containers c
  | .firstName =>
    if blank c then some r
    else if c = '\x22' then some ⟨r.containers, .string .emptyName⟩
    else if c = '\x7d' then after r.containers c
    else none
  | .nextName =>
    if blank c then some r
    else if c = '\x22' then some ⟨r.containers, .string .emptyName⟩
    else none
  | .colon =>
    if blank c then some r else if c = ':' then some ⟨r.containers, .value⟩ else none
  | .string part =>
    if c = '\x22' then part.close.map fun mode => ⟨r.containers, mode⟩
    else if c = '\\' then some ⟨r.containers, .escape part⟩
    else if control c then none
    else some ⟨r.containers, .string part.grow⟩
  | .escape part =>
    if c = 'u' then some ⟨r.containers, .hex part 3⟩
    else if c ∈ ['\x22', '\\', '/', 'b', 'f', 'n', 'r', 't'] then
      some ⟨r.containers, .string part.grow⟩
    else none
  | .hex part missing =>
    if hexDigit c then
      match missing with
      | 0 => some ⟨r.containers, .string part.grow⟩
      | missing + 1 => some ⟨r.containers, .hex part missing⟩
    else none
  | .word literal read =>
    if literal.text[read]? = some c then
      let ends := read + 1 = literal.text.length
      some ⟨r.containers, if ends then .ended else .word literal (read + 1)⟩
    else none
  | .minus =>
    if c = '0' then some ⟨r.containers, .zero⟩
    else if c.isDigit then some ⟨r.containers, .integer⟩
    else none
  | .zero => afterInteger r.containers c
  | .integer => if c.isDigit then some r else afterInteger r.containers c
  | .point => if c.isDigit then some ⟨r.containers, .fraction⟩ else none
  | .fraction =>
    if c.isDigit then some r
    else if c = 'e' ∨ c = 'E' then some ⟨r.containers, .exponent⟩
    else after r.containers c
  | .exponent =>
    if c = '+' ∨ c = '-' then some ⟨r.containers, .exponentSign⟩
    else if c.isDigit then some ⟨r.containers, .power⟩
    else none
  | .exponentSign => if c.isDigit then some ⟨r.containers, .power⟩ else none
  | .power => if c.isDigit then some r else after r.containers c
  | .ended => after r.containers c

/-- A value may end in this mode. -/
def Mode.final : Mode → Bool
  | .zero | .integer | .fraction | .power | .ended => true
  | _ => false

def Reader.complete (r : Reader) : Bool := r.containers = [] && r.mode.final

/-- The text is one JSON value. -/
def isJson (text : List Char) : Bool := (run step ⟨[], .value⟩ text).any Reader.complete

/-- The text is one JSON object. -/
def isObject (text : List Char) : Bool := text.head? = some '\x7b' && isJson text

/-- The outermost object of the text has a member of this name, spelled without escapes. -/
def HasMember (name : List Char) (text : List Char) : Prop :=
  ∃ before after mode, text = before ++ '\x22' :: name ++ '\x22' :: after ∧
    run step ⟨[], .value⟩ before = some ⟨[.object], mode⟩ ∧ (mode = .firstName ∨ mode = .nextName)

/-- One line with its end. -/
def OneLine (text : List Char) : Prop := ∃ body, text = body ++ ['\n'] ∧ '\n' ∉ body

/-! ### Splicing strings -/

/-- Inside a string value of `depth` nested objects. -/
def inside (depth : ℕ) : Reader := ⟨List.replicate depth .object, .string .value⟩

def Splices (depth : ℕ) (s : List Char) : Prop :=
  '\n' ∉ s ∧ run step (inside depth) s = some (inside depth)

/-- `s` is read as a value of an object, which the brace after it closes. -/
def SplicesValue (s : List Char) : Prop :=
  '\n' ∉ s ∧ run step ⟨[.object], .value⟩ (s ++ ['\x7d']) = some ⟨[], .ended⟩

instance (depth : ℕ) (s : List Char) : Decidable (Splices depth s) :=
  inferInstanceAs (Decidable (_ ∧ _))

instance (s : List Char) : Decidable (SplicesValue s) := inferInstanceAs (Decidable (_ ∧ _))

/-- A character that stands for itself in a string. -/
def plain (c : Char) : Bool := c ≠ '\x22' && c ≠ '\\' && !control c

theorem run_append {r : Reader} {s t : List Char} :
    run step r (s ++ t) = (run step r s).bind fun r' => run step r' t := by
  induction s generalizing r with
  | nil => rfl
  | cons c s ih =>
    cases hstep : step r c with
    | none => simp [run, hstep]
    | some r' => simp [run, hstep, ih]

theorem step_plain {depth : ℕ} {c : Char} (h : plain c = true) :
    step (inside depth) c = some (inside depth) := by
  simp only [plain, Bool.and_eq_true, decide_eq_true_eq, Bool.not_eq_true'] at h
  obtain ⟨⟨hquote, hescape⟩, hcontrol⟩ := h
  simp [step, inside, hquote, hescape, hcontrol, Part.grow]

theorem run_plain {depth : ℕ} {s : List Char} (h : ∀ c ∈ s, plain c = true) :
    run step (inside depth) s = some (inside depth) := by
  induction s with
  | nil => rfl
  | cons c s ih =>
    rw [run, step_plain (h c (List.mem_cons_self ..))]
    exact ih fun d hd => h d (List.mem_cons_of_mem _ hd)

theorem plain_ne_newline {s : List Char} (h : ∀ c ∈ s, plain c = true) : '\n' ∉ s := by
  intro hmem
  have hplain := h _ hmem
  simp [plain, control] at hplain

theorem splices_plain {depth : ℕ} {s : List Char} (h : ∀ c ∈ s, plain c = true) :
    Splices depth s :=
  ⟨plain_ne_newline h, run_plain h⟩

/-- A plain text before a spliced string changes nothing. -/
theorem splices_append {depth : ℕ} {s t : List Char} (h : ∀ c ∈ s, plain c = true) :
    Splices depth (s ++ t) ↔ Splices depth t := by
  simp only [Splices, run_append, run_plain h, Option.bind_some, List.mem_append,
    plain_ne_newline h, false_or]

/-- The end of a string value and of the objects around it. -/
def closing (depth : ℕ) : List Char := '\x22' :: List.replicate depth '\x7d' ++ ['\n']

/-- The reader accepts the rest of the text. -/
def Ends (r : Reader) (rest : List Char) : Prop :=
  ∃ r', run step r rest = some r' ∧ r'.complete = true

theorem isJson_append {r : Reader} {text rest : List Char}
    (h : run step ⟨[], .value⟩ text = some r) : isJson (text ++ rest) = true ↔ Ends r rest := by
  rw [isJson, run_append, h, Option.bind_some, Option.any_eq_true]
  rfl

theorem ends_cons {r : Reader} {c : Char} {rest : List Char} :
    Ends r (c :: rest) ↔ ∃ r', step r c = some r' ∧ Ends r' rest := by
  simp only [Ends, run_cons_eq_some]
  constructor
  · rintro ⟨r', ⟨t, ht, hrun⟩, hcomplete⟩
    exact ⟨t, ht, r', hrun, hcomplete⟩
  · rintro ⟨t, ht, r', hrun, hcomplete⟩
    exact ⟨r', ⟨t, ht, hrun⟩, hcomplete⟩

/-- After a value the braces close exactly the objects that are open. -/
theorem ends_ended {depth : ℕ} {containers : List Container} :
    Ends ⟨containers, .ended⟩ (List.replicate depth '\x7d' ++ ['\n']) ↔
      containers = List.replicate depth .object := by
  induction depth generalizing containers with
  | zero =>
    have hstep : step ⟨containers, .ended⟩ '\n' = some ⟨containers, .ended⟩ := by
      simp [step, after, blank]
    simp [Ends, run, hstep, Reader.complete, Mode.final]
  | succ depth ih =>
    rw [List.replicate_succ, List.cons_append, ends_cons]
    cases containers with
    | nil => simp [step, after, blank, List.replicate_succ]
    | cons container containers =>
      cases container with
      | array => simp [step, after, blank, List.replicate_succ]
      | object =>
        have hstep : step ⟨.object :: containers, .ended⟩ '\x7d' = some ⟨containers, .ended⟩ := by
          simp [step, after, blank]
        simp only [hstep, Option.some.injEq, exists_eq_left', ih, List.replicate_succ,
          List.cons.injEq, true_and]

/-- A string that is still open does not end with the line. -/
theorem not_ends_string {depth : ℕ} {containers : List Container} {part : Part} :
    ¬ Ends ⟨containers, .string part⟩ (List.replicate depth '\x7d' ++ ['\n']) := by
  induction depth generalizing part with
  | zero => simp [Ends, run, step, control]
  | succ depth ih =>
    rw [List.replicate_succ, List.cons_append, ends_cons]
    rintro ⟨r', hstep, hends⟩
    have hr : r' = ⟨containers, .string part.grow⟩ := by
      simpa [step, control, eq_comm] using hstep
    exact ih (hr ▸ hends)

/-- What the quote of a closing leads to. -/
theorem step_quote {r r' : Reader} (h : step r '\x22' = some r') :
    (r.mode = .string .value ∧ r' = ⟨r.containers, .ended⟩) ∨
    r'.mode = .colon ∨ ∃ part, r'.mode = .string part := by
  obtain ⟨containers, mode⟩ := r
  have hafter : after containers '\x22' = none := by
    cases containers with
    | nil => rfl
    | cons container containers => cases container <;> rfl
  cases mode with
  | string part =>
    cases part with
    | value => exact .inl ⟨rfl, by simpa [step, Part.close, eq_comm] using h⟩
    | emptyName => simp [step, Part.close] at h
    | name =>
      simp only [step, Part.close, if_true, Option.map_some, Option.some.injEq] at h
      exact .inr (.inl (by rw [← h]))
  | escape part =>
    simp [step] at h
    exact .inr (.inr ⟨part.grow, by rw [← h]⟩)
  | hex part missing => simp [step, hexDigit] at h
  | word literal read =>
    have hletters : '\x22' ∉ literal.text := by cases literal <;> decide
    have hne : literal.text[read]? ≠ some '\x22' :=
      fun heq => hletters (List.mem_of_getElem? heq)
    simp [step, hne] at h
  | value =>
    simp [step, start, blank] at h
    exact .inr (.inr ⟨.value, by rw [← h]⟩)
  | firstElement =>
    simp [step, start, blank] at h
    exact .inr (.inr ⟨.value, by rw [← h]⟩)
  | firstName =>
    simp [step, blank] at h
    exact .inr (.inr ⟨.emptyName, by rw [← h]⟩)
  | nextName =>
    simp [step, blank] at h
    exact .inr (.inr ⟨.emptyName, by rw [← h]⟩)
  | colon => simp [step, blank] at h
  | minus => simp [step] at h
  | zero => simp [step, afterInteger, hafter] at h
  | integer => simp [step, afterInteger, hafter] at h
  | point => simp [step] at h
  | fraction => simp [step, hafter] at h
  | exponent => simp [step] at h
  | exponentSign => simp [step] at h
  | power => simp [step, hafter] at h
  | ended => simp [step, hafter] at h

theorem ends_closing {depth : ℕ} {r : Reader} :
    Ends r (closing depth) ↔ r = inside depth := by
  rw [closing, List.cons_append, ends_cons]
  constructor
  · rintro ⟨r', hstep, hends⟩
    obtain ⟨hmode, rfl⟩ | hcolon | ⟨part, hstring⟩ := step_quote hstep
    · rw [ends_ended] at hends
      cases r
      simp_all [inside]
    · obtain ⟨containers, mode⟩ := r'
      subst hcolon
      cases depth with
      | zero => simp [Ends, run, step, blank, Reader.complete, Mode.final] at hends
      | succ depth =>
        rw [List.replicate_succ, List.cons_append, ends_cons] at hends
        simp [step, blank] at hends
    · obtain ⟨containers, mode⟩ := r'
      subst hstring
      exact absurd hends not_ends_string
  · rintro rfl
    refine ⟨⟨List.replicate depth .object, .ended⟩, ?_, ends_ended.mpr rfl⟩
    simp [step, inside, Part.close]

theorem oneLine_iff {text : List Char} : OneLine (text ++ ['\n']) ↔ '\n' ∉ text := by
  constructor
  · rintro ⟨body, hbody, hmem⟩
    rwa [List.append_cancel_right hbody]
  · intro hmem
    exact ⟨text, rfl, hmem⟩

theorem not_splices {depth : ℕ} {s : List Char} (h : '\n' ∈ s) : ¬ Splices depth s :=
  fun hsplices => hsplices.1 h

/-- A text with a spliced string is one line of JSON exactly if the string splices. -/
theorem spliced_iff {depth : ℕ} {head s : List Char}
    (hhead : run step ⟨[], .value⟩ head = some (inside depth)) (hline : '\n' ∉ head) :
    OneLine (head ++ s ++ closing depth) ∧ isJson (head ++ s ++ closing depth) = true ↔
      Splices depth s := by
  have hjson : isJson (head ++ s ++ closing depth) = true ↔
      run step (inside depth) s = some (inside depth) := by
    cases hrun : run step (inside depth) s with
    | none => simp [isJson, run_append, hhead, hrun]
    | some r =>
      have htext : run step ⟨[], .value⟩ (head ++ s) = some r := by
        rw [run_append, hhead, Option.bind_some, hrun]
      rw [isJson_append htext, ends_closing, Option.some.injEq]
  have honeLine : OneLine (head ++ s ++ closing depth) ↔ '\n' ∉ s := by
    rw [closing, ← List.append_assoc, oneLine_iff]
    simp [hline, List.mem_replicate]
  rw [hjson, honeLine, Splices]

/-- What a brace leads to. -/
theorem step_brace {r r' : Reader} (h : step r '\x7d' = some r') :
    r'.mode = .ended ∨ ∃ part, r'.mode = .string part := by
  obtain ⟨containers, mode⟩ := r
  have hafter : after containers '\x7d' = some r' → r'.mode = .ended := by
    intro hafter
    cases containers with
    | nil => simp [after, blank] at hafter
    | cons container containers =>
      cases container with
      | object =>
        simp [after, blank] at hafter
        rw [← hafter]
      | array => simp [after, blank] at hafter
  cases mode with
  | string part =>
    simp [step, control] at h
    exact .inr ⟨part.grow, by rw [← h]⟩
  | word literal read =>
    have hletters : '\x7d' ∉ literal.text := by cases literal <;> decide
    have hne : literal.text[read]? ≠ some '\x7d' :=
      fun heq => hletters (List.mem_of_getElem? heq)
    simp [step, hne] at h
  | firstName =>
    simp only [step, blank] at h
    exact .inl (hafter (by simpa using h))
  | zero => exact .inl (hafter (by simpa [step, afterInteger] using h))
  | integer => exact .inl (hafter (by simpa [step, afterInteger] using h))
  | fraction => exact .inl (hafter (by simpa [step] using h))
  | power => exact .inl (hafter (by simpa [step] using h))
  | ended => exact .inl (hafter (by simpa [step] using h))
  | escape part => simp [step] at h
  | hex part missing => simp [step, hexDigit] at h
  | value => simp [step, start, blank] at h
  | firstElement => simp [step, start, blank] at h
  | nextName => simp [step, blank] at h
  | colon => simp [step, blank] at h
  | minus => simp [step] at h
  | point => simp [step] at h
  | exponent => simp [step] at h
  | exponentSign => simp [step] at h

theorem ends_brace {r : Reader} :
    Ends r ['\x7d', '\n'] ↔ step r '\x7d' = some ⟨[], .ended⟩ := by
  rw [ends_cons]
  constructor
  · rintro ⟨r', hstep, hends⟩
    obtain ⟨containers, mode⟩ := r'
    obtain hended | ⟨part, hstring⟩ := step_brace hstep
    · subst hended
      have hcontainers : containers = [] := (@ends_ended 0 containers).mp hends
      rw [hstep, hcontainers]
    · subst hstring
      simp [Ends, run, step, control] at hends
  · intro hstep
    exact ⟨_, hstep, ⟨[], .ended⟩, rfl, rfl⟩

/-- A text with a spliced value is one line of JSON exactly if the value splices. -/
theorem spliced_value_iff {head s : List Char}
    (hhead : run step ⟨[], .value⟩ head = some ⟨[.object], .value⟩) (hline : '\n' ∉ head) :
    OneLine (head ++ s ++ ['\x7d', '\n']) ∧ isJson (head ++ s ++ ['\x7d', '\n']) = true ↔
      SplicesValue s := by
  have hjson : isJson (head ++ s ++ ['\x7d', '\n']) = true ↔
      run step ⟨[.object], .value⟩ (s ++ ['\x7d']) = some ⟨[], .ended⟩ := by
    cases hrun : run step ⟨[.object], .value⟩ s with
    | none => simp [isJson, run_append, hhead, hrun]
    | some r =>
      have htext : run step ⟨[], .value⟩ (head ++ s) = some r := by
        rw [run_append, hhead, Option.bind_some, hrun]
      rw [isJson_append htext, ends_brace, run_append, hrun, Option.bind_some]
      simp [run]
  have honeLine : OneLine (head ++ s ++ ['\x7d', '\n']) ↔ '\n' ∉ s := by
    rw [show head ++ s ++ ['\x7d', '\n'] = head ++ s ++ ['\x7d'] ++ ['\n'] by simp, oneLine_iff]
    simp [hline]
  rw [hjson, honeLine, SplicesValue]

end JsonText
