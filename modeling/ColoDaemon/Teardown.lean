import ColoDaemon.Runs
import ColoDaemon.Watchdog
import ColoDaemon.ClientRequests

/-!
# The end of the main loop

`daemon_mainloop` frees the main coroutine, the watchdog, the listener with its clients, the command
tables and QMP in this order. While one of them has not come to its end, the main context goes on,
and what is left dispatches with it. One iteration dispatches any number of sources. The watchdog
and the clients keep the pointer to the main coroutine.
-/

namespace ColoDaemon
namespace Teardown

/-! ### The clients -/

inductive ClientPoint
  | reading
  | calling (call : QemuCall)
  | writing
  /-- The `cont` after an error. -/
  | resuming
  deriving DecidableEq, Repr

/-- `shut` says that `client_listener_free` has shut the channel down. -/
structure Client where
  point : ClientPoint
  busy : Bool
  quit : Bool
  shut : Bool
  stoppedQemu : Bool
  deriving DecidableEq, Repr

/-- A line as `_colod_client_co` takes it; `valid` says that the members the command needs are
there. -/
inductive Request
  | malformed
  | unknown
  | command (command : ClientCommand) (valid : Bool)
  | execute (line : String)
  deriving DecidableEq, Repr

namespace Request

def call : Request → Option QemuCall
  | .command .queryStatus _ => some .queryStatus
  | .command .yank _ => some .yank
  | .command .stop _ => some .stop
  | .command .cont _ => some .cont
  | .execute line => some (.executeNocheck line)
  | .malformed | .unknown | .command _ _ => none

/-- What the handler of a command that is answered at once reads or writes. -/
def objects : Request → List Object
  | .command .queryStore _ | .command .setStore _ => [.listener]
  | .command .quit _ | .command .autoquit _ | .command .startMigration _
  | .command .queryPeer _ | .command .clearPeer _ => [.main]
  | .command .setMigrationStart valid | .command .setMigrationSwitchover valid
  | .command .setPrimaryFailover valid | .command .setSecondaryFailover valid =>
    if valid then [.commands] else []
  | .command .setYank valid => if valid then [.qmp] else []
  | .command .setPeer valid => if valid then [.main] else []
  | .malformed | .unknown | .command _ _ | .execute _ => []

end Request

/-- What a client is resumed with. -/
inductive Turn
  | line (request : Request)
  | readFails
  /-- The call to qemu is entered again and yields again. -/
  | yields
  | answered (ok : Bool)
  | written (ok : Bool)
  | resumed (ok : Bool)
  deriving DecidableEq, Repr

/-! ### The daemon -/

inductive Phase
  | running
  | mainFree
  | watchdogFree
  | listenerFree
  | qmpFree
  | finished
  deriving DecidableEq, Repr

/-- What `daemon_mainloop` has freed before it gets there. -/
def Phase.freed : Phase → List Object
  | running | mainFree => []
  | watchdogFree => [.main, .cpg]
  | listenerFree => [.main, .cpg, .watchdog]
  | qmpFree => [.main, .cpg, .watchdog, .listener, .commands]
  | finished => [.main, .cpg, .watchdog, .listener, .commands, .qmp]

/-- `dispatching` says that `g_main_context_iteration` has been called and has not been left. -/
structure State where
  phase : Phase
  dispatching : Bool
  loopQuit : Bool
  mainQuit : Bool
  qmpQuit : Bool
  listening : Bool
  clients : List Client
  watchdog : ColodWatchdog
  fault : Option MemoryFault
  deriving DecidableEq, Repr

/-- Before `g_main_loop_run`. -/
def State.start (interval : ℕ) : State where
  phase := .running
  dispatching := true
  loopQuit := false
  mainQuit := false
  qmpQuit := false
  listening := true
  clients := []
  watchdog := .new interval
  fault := none

inductive Label
  /-- The condition of the loop around `g_main_context_iteration`. -/
  | check
  | accept (ok : Bool)
  | client (i : ℕ) (turn : Turn)
  /-- A source of the watchdog's own. -/
  | source (id : ℕ) (outcome : ColodWatchdog.Check)
  /-- The health check of the watchdog is entered again. -/
  | checked (outcome : ColodWatchdog.Check)
  | qmpEvent
  | mainCommand
  | autoquit
  | mainQuits
  | qmpQuits
  deriving DecidableEq, Repr

namespace State
variable (s : State)

def use (objects : List Object) : Except MemoryFault Unit :=
  match objects.find? (· ∈ s.phase.freed) with
  | some object => .error (.freed object)
  | none => .ok ()

def setClient (i : ℕ) (client : Client) : State := { s with clients := s.clients.set i client }

/-- `client_free`. -/
def clientFree (i : ℕ) : Except MemoryFault State := do
  s.use [.listener]
  .ok { s with clients := s.clients.eraseIdx i }

/-- The part of a call to qemu that runs at every entry: `colod_execute_nocheck_co` puts the timer
of the watchdog off. -/
def enterCall : QemuCall → Except MemoryFault State
  | .yank => do
    s.use [.main, .qmp]
    .ok s
  | _ => do
    s.use [.main, .watchdog, .qmp]
    let watchdog ← s.watchdog.refresh
    .ok { s with watchdog }

/-- The label `error_client`. -/
def errorClient (i : ℕ) (client : Client) : Except MemoryFault State :=
  if client.stoppedQemu then do
    let s ← s.enterCall .cont
    .ok (s.setClient i { client with point := .resuming })
  else s.clientFree i

/-- The head of the loop of a client. -/
def clientLoop (i : ℕ) (client : Client) : Except MemoryFault State :=
  if client.quit then s.clientFree i
  else .ok (s.setClient i { client with point := .reading, busy := false })

def request (i : ℕ) (client : Client) (request : Request) : Except MemoryFault State :=
  let client := { client with busy := true }
  match request.call with
  | some call => do
    let s ← s.enterCall call
    .ok (s.setClient i { client with point := .calling call })
  | none =>
    if request = .malformed then s.errorClient i client
    else do
      s.use request.objects
      let loopQuit := match request with
        | .command .quit _ => true
        | _ => s.loopQuit
      .ok ({ s with loopQuit }.setClient i { client with point := .writing })

/-- The commands `stop` and `cont` when qemu has answered. -/
def stopped (call : QemuCall) (ok stoppedQemu : Bool) : Bool :=
  match call with
  | .stop => ok || stoppedQemu
  | .cont => !ok && stoppedQemu
  | _ => stoppedQemu

/-- `_colod_client_co` from one yield to the next. -/
def clientCo (i : ℕ) (client : Client) : Turn → Option (Except MemoryFault State)
  | .line request =>
    if client.point = .reading then
      some (if client.quit then s.clientFree i else s.request i client request)
    else none
  | .readFails =>
    if client.point = .reading then
      some (if client.quit then s.clientFree i else s.errorClient i client)
    else none
  | .yields =>
    match client.point with
    | .calling call => some (s.enterCall call)
    | .resuming => some (s.enterCall .cont)
    | _ => none
  | .answered ok =>
    match client.point with
    | .calling call => some do
      let s ← s.enterCall call
      .ok (s.setClient i { client with
        point := .writing, stoppedQemu := stopped call ok client.stoppedQemu })
    | _ => none
  | .written ok =>
    if client.point = .writing then
      some (if ok then s.clientLoop i client else s.errorClient i client)
    else none
  | .resumed _ =>
    if client.point = .resuming then some do
      let s ← s.enterCall .cont
      s.clientFree i
    else none

/-- `colod_watchdog_co` when one of its own sources is dispatched. The refresh at the entry of the
health check finds `timer_id` cleared. -/
def watchdogCo (id : ℕ) (outcome : ColodWatchdog.Check) : Except MemoryFault State := do
  s.use [.watchdog]
  if s.watchdog.point = .waiting ∧ s.watchdog.quit = false then s.use [.main, .qmp]
  let watchdog ← s.watchdog.dispatch id outcome
  .ok { s with watchdog }

/-- `_colod_watchdog_co` when its health check is entered again. -/
def watchdogChecked (outcome : ColodWatchdog.Check) : Except MemoryFault State := do
  s.use [.watchdog]
  let s ← s.enterCall .queryStatus
  match outcome with
  | .yields => .ok s
  | .returned ok => do
    let watchdog ← s.watchdog.checked ok
    .ok { s with watchdog }

def dispatch : Label → Option (Except MemoryFault State)
  | .check => none
  | .accept true =>
    if s.listening then
      some (.ok { s with clients := ⟨.reading, false, false, false, false⟩ :: s.clients })
    else none
  | .accept false => if s.listening then some (.ok { s with listening := false }) else none
  | .client i turn => s.clients[i]?.bind fun client => s.clientCo i client turn
  | .source id outcome =>
    if id ∈ s.watchdog.sources then some (s.watchdogCo id outcome) else none
  | .checked outcome =>
    if s.watchdog.point = .checking then some (s.watchdogChecked outcome) else none
  | .qmpEvent =>
    if s.watchdog.notified then some do
      s.use [.watchdog]
      let watchdog ← s.watchdog.refresh
      .ok { s with watchdog }
    else none
  | .mainCommand => if s.mainQuit then none else some (s.enterCall (.executeNocheck ""))
  | .autoquit => if s.mainQuit then none else some (.ok { s with loopQuit := true })
  | .mainQuits =>
    if s.phase = .mainFree ∧ s.mainQuit = false then some (.ok { s with mainQuit := true })
    else none
  | .qmpQuits => if s.phase = .qmpFree then some (.ok { s with qmpQuit := true }) else none

/-- `client_listener_free` before its loop. -/
def listenerFree : State :=
  { s with
    phase := .listenerFree, dispatching := false, listening := false
    clients := s.clients.map fun client =>
      { client with quit := true, shut := client.shut || !client.busy } }

/-- `colo_watchdog_free` before its loop, or all of it. -/
def watchdogFree : Except MemoryFault State :=
  if s.watchdog.interval = 0 then .ok s.listenerFree
  else do
    let watchdog ← s.watchdog.free
    .ok { s with phase := .watchdogFree, dispatching := false, watchdog }

/-- Goes on to the next `free` where the loop ends. -/
def loopCheck : Option (Except MemoryFault State) :=
  match s.phase with
  | .running =>
    some (.ok (if s.loopQuit then { s with phase := .mainFree, dispatching := false } else s))
  | .mainFree => some (if s.mainQuit then s.watchdogFree else .ok { s with dispatching := true })
  | .watchdogFree =>
    some (.ok (if s.watchdog.point = .ended then s.listenerFree
      else { s with dispatching := true }))
  | .listenerFree =>
    some (.ok (if s.clients = [] then { s with phase := .qmpFree, dispatching := false }
      else { s with dispatching := true }))
  | .qmpFree =>
    some (.ok (if s.qmpQuit then { s with phase := .finished, dispatching := false }
      else { s with dispatching := true }))
  | .finished => none

def settle : Except MemoryFault State → State
  | .ok t => t
  | .error fault => { s with fault := some fault }

def step (label : Label) : Option State :=
  if s.fault ≠ none then none
  else if label = .check then s.loopCheck.map s.settle
  else if s.dispatching then (s.dispatch label).map s.settle
  else none

end State

/-! ### What holds in each phase -/

def Phase.mainFreed : Phase → Prop
  | running | mainFree => False
  | watchdogFree | listenerFree | qmpFree | finished => True

/-- The phases in which a client or the watchdog may still be resumed. -/
def Phase.live : Phase → Prop
  | running | mainFree | watchdogFree | listenerFree => True
  | qmpFree | finished => False

def Phase.listenerClosed : Phase → Prop
  | running | mainFree | watchdogFree => False
  | listenerFree | qmpFree | finished => True

/-- Nothing resumes the watchdog any more. -/
structure Silent (state : ColodWatchdog) : Prop where
  notified : state.notified = false
  timerId : state.timerId = 0
  sources : state.sources = []
  checking : state.point ≠ .checking

def WatchdogFits (phase : Phase) (state : ColodWatchdog) : Prop :=
  match phase with
  | .running | .mainFree => state.quit = false
  | .watchdogFree => state.quit = true ∧ state.notified = false ∧ state.interval ≠ 0
  | .listenerFree | .qmpFree | .finished => Silent state

def ClientFits (phase : Phase) (client : Client) : Prop :=
  match phase with
  | .running | .mainFree | .watchdogFree =>
    client.quit = false ∧ (client.point = .reading → client.busy = false)
  | .listenerFree => client.quit = true ∧ (client.point = .reading → client.shut = true)
  | .qmpFree | .finished => False

structure Sound (s : State) : Prop where
  watchdog : s.watchdog.Sound
  fits : WatchdogFits s.phase s.watchdog
  clients : ∀ client ∈ s.clients, ClientFits s.phase client
  listening : s.phase.listenerClosed → s.listening = false
  mainQuit : s.phase.mainFreed → s.mainQuit = true

/-- What a dispatch ends with: a fault of the freed main coroutine, or a sound state of the same
phase. -/
def Ends (s : State) (r : Except MemoryFault State) : Prop :=
  (r = .error (.freed .main) ∧ s.phase.mainFreed ∧ s.phase.live) ∨
    ∃ t, r = .ok t ∧ Sound t ∧ t.phase = s.phase ∧ t.fault = s.fault

section Steps
variable {s t : State}

theorem start_sound (interval : ℕ) : Sound (.start interval) where
  watchdog := ColodWatchdog.new_sound interval
  fits := rfl
  clients := by simp [State.start]
  listening := fun h => h.elim
  mainQuit := fun h => h.elim

theorem use_ok {objects : List Object} (h : ∀ object ∈ objects, object ∉ s.phase.freed) :
    s.use objects = .ok () := by
  have hfind : objects.find? (· ∈ s.phase.freed) = none := by
    simpa [List.find?_eq_none] using h
  simp [State.use, hfind]

theorem use_main (h : s.phase.mainFreed) (objects : List Object) :
    s.use (.main :: objects) = .error (.freed .main) := by
  have hfreed : Object.main ∈ s.phase.freed := by
    cases hp : s.phase with
    | running | mainFree =>
      rw [hp] at h
      exact h.elim
    | watchdogFree | listenerFree | qmpFree | finished => exact List.mem_cons_self ..
  simp [State.use, hfreed]

theorem freed_nil (h : ¬ s.phase.mainFreed) : s.phase.freed = [] := by
  cases hp : s.phase with
  | running | mainFree => rfl
  | watchdogFree | listenerFree | qmpFree | finished =>
    rw [hp] at h
    exact absurd trivial h

theorem use_all (h : ¬ s.phase.mainFreed) (objects : List Object) : s.use objects = .ok () :=
  use_ok (by simp [freed_nil h])

theorem use_listener (h : s.phase.live) : s.use [.listener] = .ok () := by
  apply use_ok
  cases hp : s.phase with
  | qmpFree | finished =>
    rw [hp] at h
    exact h.elim
  | running | mainFree | watchdogFree | listenerFree => decide

theorem Sound.live_of_client (h : Sound s) {client : Client} (hc : client ∈ s.clients) :
    s.phase.live := by
  have hfits := h.clients client hc
  cases hp : s.phase with
  | running | mainFree | watchdogFree | listenerFree => trivial
  | qmpFree | finished =>
    rw [hp] at hfits
    exact hfits

theorem Sound.setWatchdog (h : Sound s) {watchdog : ColodWatchdog} (hw : watchdog.Sound)
    (hfits : WatchdogFits s.phase watchdog) : Sound { s with watchdog } :=
  ⟨hw, hfits, h.clients, h.listening, h.mainQuit⟩

theorem Sound.setClient (h : Sound s) {client : Client} (hc : ClientFits s.phase client) (i : ℕ) :
    Sound (s.setClient i client) := by
  refine ⟨h.watchdog, h.fits, fun other hother => ?_, h.listening, h.mainQuit⟩
  rcases List.mem_or_eq_of_mem_set hother with hold | rfl
  · exact h.clients other hold
  · exact hc

theorem Sound.eraseClient (h : Sound s) (i : ℕ) :
    Sound { s with clients := s.clients.eraseIdx i } :=
  ⟨h.watchdog, h.fits, fun client hc => h.clients client (List.mem_of_mem_eraseIdx hc), h.listening,
    h.mainQuit⟩

/-- A turn of the watchdog keeps what its phase asks for. -/
theorem WatchdogFits.turned {phase : Phase} {state next : ColodWatchdog}
    (h : WatchdogFits phase state) (hphase : ¬ phase.listenerClosed)
    (hk : ColodWatchdog.Keeps state next) : WatchdogFits phase next := by
  cases phase with
  | running | mainFree => exact hk.quit.trans h
  | watchdogFree =>
    obtain ⟨hq, hn, hi⟩ := h
    exact ⟨hk.quit.trans hq, hk.notified.trans hn, hk.interval ▸ hi⟩
  | listenerFree | qmpFree | finished => exact absurd trivial hphase

theorem not_listenerClosed {phase : Phase} (h : ¬ phase.mainFreed) : ¬ phase.listenerClosed := by
  cases phase with
  | running | mainFree | watchdogFree => exact not_false
  | listenerFree | qmpFree | finished => exact absurd trivial h

/-- A call to qemu finds the main coroutine freed, or puts the timer off at most. -/
theorem Sound.enterCall (h : Sound s) (call : QemuCall) :
    s.phase.mainFreed ∧ s.enterCall call = .error (.freed .main) ∨
      ¬ s.phase.mainFreed ∧
        ∃ watchdog, s.enterCall call = .ok { s with watchdog } ∧ Sound { s with watchdog } ∧
          watchdog.point = s.watchdog.point := by
  by_cases hfreed : s.phase.mainFreed
  · refine .inl ⟨hfreed, ?_⟩
    cases call with
    | yank | queryStatus | stop | cont | executeNocheck =>
      simp only [State.enterCall, use_main hfreed]
      rfl
  · refine .inr ⟨hfreed, ?_⟩
    obtain ⟨watchdog, hrefresh, hw, hk, hpoint⟩ := h.watchdog.refresh
    have hs : Sound { s with watchdog } :=
      h.setWatchdog hw (h.fits.turned (not_listenerClosed hfreed) hk)
    cases call with
    | yank => exact ⟨s.watchdog, by simp only [State.enterCall, use_all hfreed]; rfl, h, rfl⟩
    | queryStatus | stop | cont | executeNocheck =>
      refine ⟨watchdog, ?_, hs, hpoint⟩
      simp only [State.enterCall, use_all hfreed, hrefresh]
      rfl

/-! ### One dispatch -/

theorem Ends.ok (ht : Sound t) (hphase : t.phase = s.phase) (hfault : t.fault = s.fault) :
    Ends s (.ok t) :=
  .inr ⟨t, rfl, ht, hphase, hfault⟩

theorem Sound.call_ends (h : Sound s) (hlive : s.phase.live) (call : QemuCall)
    {f : State → Except MemoryFault State}
    (hf : ∀ watchdog, Sound { s with watchdog } → watchdog.point = s.watchdog.point →
      Ends { s with watchdog } (f { s with watchdog })) :
    Ends s (s.enterCall call >>= f) := by
  rcases h.enterCall call with ⟨hfreed, hcall⟩ | ⟨-, watchdog, hcall, hs, hpoint⟩
  · exact .inl ⟨by rw [hcall]; rfl, hfreed, hlive⟩
  · rw [hcall]
    exact hf watchdog hs hpoint

theorem Sound.clientFree_ends (h : Sound s) (hlive : s.phase.live) (i : ℕ) :
    Ends s (s.clientFree i) := by
  simp only [State.clientFree, use_listener hlive]
  exact .ok (h.eraseClient i) rfl rfl

theorem Sound.errorClient_ends (h : Sound s) (hlive : s.phase.live) (i : ℕ) {client : Client}
    (hc : ClientFits s.phase { client with point := .resuming }) :
    Ends s (s.errorClient i client) := by
  unfold State.errorClient
  split_ifs
  · apply h.call_ends hlive
    intro watchdog hs _
    exact .ok (hs.setClient hc i) rfl rfl
  · exact h.clientFree_ends hlive i

/-- A client that does not read fits wherever it was told the same. -/
theorem ClientFits.moved {phase : Phase} {client next : Client} (h : ClientFits phase client)
    (hq : next.quit = client.quit) (hp : next.point ≠ .reading) : ClientFits phase next := by
  cases phase with
  | running | mainFree | watchdogFree => exact ⟨hq.trans h.1, fun hp' => absurd hp' hp⟩
  | listenerFree => exact ⟨hq.trans h.1, fun hp' => absurd hp' hp⟩
  | qmpFree | finished => exact h

theorem Request.objects_eq (request : Request) :
    request.objects = [.main] ∨
      ∀ object ∈ request.objects, object = .listener ∨ object = .commands ∨ object = .qmp := by
  cases request with
  | malformed | unknown | execute => exact .inr (by simp [objects])
  | command command valid => cases command <;> cases valid <;> simp [objects]

theorem use_objects (h : ¬ s.phase.listenerClosed) (request : Request) :
    s.phase.mainFreed ∧ s.use request.objects = .error (.freed .main) ∨
      s.use request.objects = .ok () := by
  by_cases hfreed : s.phase.mainFreed
  · rcases request.objects_eq with hmain | hother
    · exact .inl ⟨hfreed, hmain ▸ use_main hfreed []⟩
    · refine .inr (use_ok fun object hobject => ?_)
      cases hp : s.phase with
      | running | mainFree => simp [Phase.freed]
      | watchdogFree => rcases hother object hobject with rfl | rfl | rfl <;> decide
      | listenerFree | qmpFree | finished =>
        rw [hp] at h
        exact absurd trivial h
  · exact .inr (use_all hfreed _)

theorem Sound.request_ends (h : Sound s) (hlive : s.phase.live) (i : ℕ) {client : Client}
    (hc : ClientFits s.phase client) (hq : client.quit = false) (request : Request) :
    Ends s (s.request i client request) := by
  have hclosed : ¬ s.phase.listenerClosed := by
    cases hp : s.phase with
    | running | mainFree | watchdogFree => exact not_false
    | listenerFree =>
      rw [hp] at hc
      exact absurd (hc.1.symm.trans hq) (by decide)
    | qmpFree | finished =>
      rw [hp] at hlive
      exact hlive.elim
  unfold State.request
  cases hcall : request.call with
  | some call =>
    apply h.call_ends hlive
    intro watchdog hs _
    refine .ok (hs.setClient ?_ i) rfl rfl
    exact hc.moved rfl (by simp)
  | none =>
    split_ifs with hmalformed
    · exact h.errorClient_ends hlive i (hc.moved rfl (by simp))
    · rcases use_objects hclosed request with ⟨hfreed, huse⟩ | huse
      · exact .inl ⟨by rw [huse]; rfl, hfreed, hlive⟩
      · rw [huse]
        refine .ok (Sound.setClient ?_ ?_ i) rfl rfl
        · exact ⟨h.watchdog, h.fits, h.clients, h.listening, h.mainQuit⟩
        · exact hc.moved rfl (by simp)

theorem Sound.clientLoop_ends (h : Sound s) (hlive : s.phase.live) (i : ℕ) {client : Client}
    (hc : ClientFits s.phase client) : Ends s (s.clientLoop i client) := by
  unfold State.clientLoop
  split_ifs with hq
  · exact h.clientFree_ends hlive i
  · refine .ok (h.setClient ?_ i) rfl rfl
    cases hp : s.phase with
    | running | mainFree | watchdogFree =>
      rw [hp] at hc
      exact ⟨hc.1, fun _ => rfl⟩
    | listenerFree =>
      rw [hp] at hc
      exact absurd hc.1 hq
    | qmpFree | finished =>
      rw [hp] at hlive
      exact hlive.elim

theorem Sound.clientCo_ends (h : Sound s) (i : ℕ) {client : Client} (hmem : client ∈ s.clients)
    {turn : Turn} {r : Except MemoryFault State} (hr : s.clientCo i client turn = some r) :
    Ends s r := by
  have hlive := h.live_of_client hmem
  have hc := h.clients client hmem
  cases turn with
  | line request =>
    simp only [State.clientCo, Option.ite_none_right_eq_some, Option.some.injEq] at hr
    obtain ⟨-, rfl⟩ := hr
    split_ifs with hq
    · exact h.clientFree_ends hlive i
    · exact h.request_ends hlive i hc (by simpa using hq) request
  | readFails =>
    simp only [State.clientCo, Option.ite_none_right_eq_some, Option.some.injEq] at hr
    obtain ⟨-, rfl⟩ := hr
    split_ifs
    · exact h.clientFree_ends hlive i
    · exact h.errorClient_ends hlive i (hc.moved rfl (by simp))
  | yields =>
    have hcall : ∀ call, Ends s (s.enterCall call) := by
      intro call
      rcases h.enterCall call with ⟨hfreed, hcall⟩ | ⟨-, watchdog, hcall, hs, -⟩
      · exact .inl ⟨hcall, hfreed, hlive⟩
      · rw [hcall]
        exact .ok hs rfl rfl
    simp only [State.clientCo] at hr
    cases hp : client.point with
    | reading | writing => simp [hp] at hr
    | calling call =>
      simp only [hp, Option.some.injEq] at hr
      exact hr ▸ hcall call
    | resuming =>
      simp only [hp, Option.some.injEq] at hr
      exact hr ▸ hcall .cont
  | answered ok =>
    simp only [State.clientCo] at hr
    cases hp : client.point with
    | reading | writing | resuming => simp [hp] at hr
    | calling call =>
      simp only [hp, Option.some.injEq] at hr
      rw [← hr]
      apply h.call_ends hlive
      intro watchdog hs _
      refine .ok (hs.setClient ?_ i) rfl rfl
      exact hc.moved rfl (by simp)
  | written ok =>
    simp only [State.clientCo, Option.ite_none_right_eq_some, Option.some.injEq] at hr
    obtain ⟨-, rfl⟩ := hr
    cases ok with
    | true => exact h.clientLoop_ends hlive i hc
    | false => exact h.errorClient_ends hlive i (hc.moved rfl (by simp))
  | resumed ok =>
    simp only [State.clientCo, Option.ite_none_right_eq_some, Option.some.injEq] at hr
    obtain ⟨-, rfl⟩ := hr
    apply h.call_ends hlive
    intro watchdog hs _
    exact hs.clientFree_ends hlive i

/-- The watchdog has something to be resumed by. -/
theorem Sound.not_closed (h : Sound s)
    (hw : s.watchdog.sources ≠ [] ∨ s.watchdog.point = .checking ∨ s.watchdog.notified = true) :
    ¬ s.phase.listenerClosed := by
  intro hclosed
  have hsilent : Silent s.watchdog := by
    have hfits := h.fits
    cases hp : s.phase with
    | running | mainFree | watchdogFree =>
      rw [hp] at hclosed
      exact hclosed.elim
    | listenerFree | qmpFree | finished =>
      rw [hp] at hfits
      exact hfits
  rcases hw with hw | hw | hw
  · exact hw hsilent.sources
  · exact hsilent.checking hw
  · rw [hsilent.notified] at hw
    cases hw

theorem live_of_not_closed {phase : Phase} (h : ¬ phase.listenerClosed) : phase.live := by
  cases phase with
  | running | mainFree | watchdogFree => trivial
  | listenerFree | qmpFree | finished => exact absurd trivial h

theorem use_watchdog (h : ¬ s.phase.listenerClosed) : s.use [.watchdog] = .ok () := by
  apply use_ok
  cases hp : s.phase with
  | running | mainFree | watchdogFree => decide
  | listenerFree | qmpFree | finished =>
    rw [hp] at h
    exact absurd trivial h

/-- While the main coroutine is freed, the timer only lets the watchdog see that it has to quit. -/
theorem Sound.watchdogCo_eq (h : Sound s) {id : ℕ} (hid : id ∈ s.watchdog.sources)
    (outcome : ColodWatchdog.Check) :
    ∃ next, s.watchdogCo id outcome = .ok { s with watchdog := next } ∧
      ColodWatchdog.Turned s.watchdog next := by
  have hclosed := h.not_closed (.inl (List.ne_nil_of_mem hid))
  obtain ⟨next, hnext, hturned⟩ := h.watchdog.dispatch hid outcome
  refine ⟨next, ?_, hturned⟩
  simp only [State.watchdogCo, use_watchdog hclosed]
  split_ifs with hcheck
  · have hfreed : ¬ s.phase.mainFreed := by
      have hfits := h.fits
      cases hp : s.phase with
      | running | mainFree => exact not_false
      | watchdogFree =>
        rw [hp] at hfits
        exact absurd (hfits.1.symm.trans hcheck.2) (by decide)
      | listenerFree | qmpFree | finished =>
        rw [hp] at hclosed
        exact absurd trivial hclosed
    simp only [use_all hfreed, hnext, bind, Except.bind]
  · simp only [hnext]
    rfl

theorem Sound.watchdogCo_ends (h : Sound s) {id : ℕ} (hid : id ∈ s.watchdog.sources)
    (outcome : ColodWatchdog.Check) : Ends s (s.watchdogCo id outcome) := by
  have hclosed := h.not_closed (.inl (List.ne_nil_of_mem hid))
  obtain ⟨next, hnext, hturned⟩ := h.watchdogCo_eq hid outcome
  exact hnext ▸ .ok (h.setWatchdog hturned.sound (h.fits.turned hclosed hturned.keeps)) rfl rfl

theorem Sound.watchdogChecked_ends (h : Sound s) (hp : s.watchdog.point = .checking)
    (outcome : ColodWatchdog.Check) : Ends s (s.watchdogChecked outcome) := by
  have hclosed := h.not_closed (.inr (.inl hp))
  simp only [State.watchdogChecked, use_watchdog hclosed]
  apply h.call_ends (live_of_not_closed hclosed)
  intro watchdog hs hpoint
  cases outcome with
  | yields => exact .ok hs rfl rfl
  | returned ok =>
    obtain ⟨next, hnext, hturned⟩ := hs.watchdog.resume (hpoint.trans hp) ok
    have hok := hs.setWatchdog hturned.sound (hs.fits.turned hclosed hturned.keeps)
    simp only [hnext]
    exact .ok hok rfl rfl

theorem Sound.dispatch_ends (h : Sound s) {label : Label} {r : Except MemoryFault State}
    (hr : s.dispatch label = some r) : Ends s r := by
  cases label with
  | check => cases hr
  | accept ok =>
    cases ok with
    | true =>
      simp only [State.dispatch, Option.ite_none_right_eq_some, Option.some.injEq] at hr
      obtain ⟨hlistening, rfl⟩ := hr
      have hclosed : ¬ s.phase.listenerClosed := by
        intro hclosed
        rw [h.listening hclosed] at hlistening
        cases hlistening
      refine .ok ⟨h.watchdog, h.fits, ?_, h.listening, h.mainQuit⟩ rfl rfl
      intro client hclient
      rcases List.mem_cons.mp hclient with rfl | hold
      · cases hp : s.phase with
        | running | mainFree | watchdogFree => exact ⟨rfl, fun _ => rfl⟩
        | listenerFree | qmpFree | finished =>
          rw [hp] at hclosed
          exact absurd trivial hclosed
      · exact h.clients client hold
    | false =>
      simp only [State.dispatch, Option.ite_none_right_eq_some, Option.some.injEq] at hr
      obtain ⟨-, rfl⟩ := hr
      exact .ok ⟨h.watchdog, h.fits, h.clients, fun _ => rfl, h.mainQuit⟩ rfl rfl
  | client i turn =>
    simp only [State.dispatch, Option.bind_eq_some_iff] at hr
    obtain ⟨client, hi, hr⟩ := hr
    exact h.clientCo_ends i (List.mem_of_getElem? hi) hr
  | source id outcome =>
    simp only [State.dispatch, Option.ite_none_right_eq_some, Option.some.injEq] at hr
    obtain ⟨hid, rfl⟩ := hr
    exact h.watchdogCo_ends hid outcome
  | checked outcome =>
    simp only [State.dispatch, Option.ite_none_right_eq_some, Option.some.injEq] at hr
    obtain ⟨hp, rfl⟩ := hr
    exact h.watchdogChecked_ends hp outcome
  | qmpEvent =>
    simp only [State.dispatch, Option.ite_none_right_eq_some, Option.some.injEq] at hr
    obtain ⟨hn, rfl⟩ := hr
    have hclosed := h.not_closed (.inr (.inr hn))
    obtain ⟨next, hnext, hw, hk, -⟩ := h.watchdog.refresh
    simp only [use_watchdog hclosed, hnext]
    exact .ok (h.setWatchdog hw (h.fits.turned hclosed hk)) rfl rfl
  | mainCommand =>
    simp only [State.dispatch, Option.ite_none_left_eq_some, Option.some.injEq] at hr
    obtain ⟨hmain, rfl⟩ := hr
    rcases h.enterCall (.executeNocheck "") with ⟨hfreed, -⟩ | ⟨-, watchdog, hcall, hs, -⟩
    · exact absurd (h.mainQuit hfreed) hmain
    · exact hcall ▸ .ok hs rfl rfl
  | autoquit =>
    simp only [State.dispatch, Option.ite_none_left_eq_some, Option.some.injEq] at hr
    obtain ⟨-, rfl⟩ := hr
    exact .ok ⟨h.watchdog, h.fits, h.clients, h.listening, h.mainQuit⟩ rfl rfl
  | mainQuits =>
    simp only [State.dispatch, Option.ite_none_right_eq_some, Option.some.injEq] at hr
    obtain ⟨-, rfl⟩ := hr
    exact .ok ⟨h.watchdog, h.fits, h.clients, h.listening, fun _ => rfl⟩ rfl rfl
  | qmpQuits =>
    simp only [State.dispatch, Option.ite_none_right_eq_some, Option.some.injEq] at hr
    obtain ⟨-, rfl⟩ := hr
    exact .ok ⟨h.watchdog, h.fits, h.clients, h.listening, h.mainQuit⟩ rfl rfl

theorem Sound.dispatching (h : Sound s) (dispatching : Bool) : Sound { s with dispatching } :=
  ⟨h.watchdog, h.fits, h.clients, h.listening, h.mainQuit⟩

/-- The clients are told to quit, and those that wait for a line are woken. -/
theorem Sound.listenerFree (h : Sound s) (hsilent : Silent s.watchdog) (hmain : s.mainQuit = true)
    (hclosed : ¬ s.phase.listenerClosed) : Sound s.listenerFree := by
  refine ⟨h.watchdog, hsilent, fun client hclient => ?_, fun _ => rfl, fun _ => hmain⟩
  obtain ⟨old, hold, rfl⟩ := List.mem_map.mp hclient
  have hfits := h.clients old hold
  refine ⟨rfl, fun hp => ?_⟩
  cases hphase : s.phase with
  | running | mainFree | watchdogFree =>
    rw [hphase] at hfits
    simp [hfits.2 hp]
  | listenerFree | qmpFree | finished =>
    rw [hphase] at hclosed
    exact absurd trivial hclosed

theorem silent_of_disabled {state : ColodWatchdog} (h : state.Sound) (hi : state.interval = 0) :
    Silent state := by
  obtain ⟨hn, ht, hs, hp⟩ := h.disabled hi
  exact ⟨hn, ht, hs, by simp [hp]⟩

theorem silent_of_ended {state : ColodWatchdog} (h : state.Sound)
    (hfits : WatchdogFits .watchdogFree state) (hp : state.point = .ended) : Silent state := by
  have hr := h.resumed hfits.2.2
  simp only [ColodWatchdog.Resumed, hp] at hr
  exact ⟨hfits.2.1, hr.1, hr.2, by simp [hp]⟩

theorem Sound.watchdogFree (h : Sound s) (hp : s.phase = .mainFree) (hmain : s.mainQuit = true) :
    (s.watchdog.interval = 0 ∧ s.watchdogFree = .ok s.listenerFree ∧ Sound s.listenerFree) ∨
      ∃ watchdog, s.watchdog.interval ≠ 0 ∧ watchdog.point = s.watchdog.point ∧
        s.watchdogFree =
          .ok { s with phase := .watchdogFree, dispatching := false, watchdog } ∧
        Sound { s with phase := .watchdogFree, dispatching := false, watchdog } := by
  by_cases hi : s.watchdog.interval = 0
  · refine .inl ⟨hi, if_pos hi, ?_⟩
    apply h.listenerFree (silent_of_disabled h.watchdog hi) hmain
    simp [hp, Phase.listenerClosed]
  · obtain ⟨watchdog, hfree, hw, hq, hn, hinterval, hpoint⟩ := h.watchdog.free hi
    refine .inr ⟨watchdog, hi, hpoint, ?_, hw, ⟨hq, hn, hinterval ▸ hi⟩, ?_, fun h => h.elim,
      fun _ => hmain⟩
    · simp only [State.watchdogFree, hi, if_false, hfree]
      rfl
    · intro client hclient
      have hfits := h.clients client hclient
      rw [hp] at hfits
      exact hfits

theorem Sound.loopCheck (h : Sound s) {r : Except MemoryFault State}
    (hr : s.loopCheck = some r) : ∃ t, r = .ok t ∧ Sound t ∧ t.fault = s.fault := by
  unfold State.loopCheck at hr
  cases hp : s.phase with
  | running =>
    simp only [hp, Option.some.injEq] at hr
    refine ⟨_, hr.symm, ?_, by split_ifs <;> rfl⟩
    split_ifs
    · have hfits := h.fits
      rw [hp] at hfits
      refine ⟨h.watchdog, hfits, fun client hclient => ?_, fun h => h.elim, fun h => h.elim⟩
      have hc := h.clients client hclient
      rw [hp] at hc
      exact hc
    · exact h
  | mainFree =>
    simp only [hp, Option.some.injEq] at hr
    rw [← hr]
    split_ifs with hmain
    · rcases h.watchdogFree hp hmain with ⟨-, hfree, hs⟩ | ⟨watchdog, -, -, hfree, hs⟩
      · exact ⟨_, hfree, hs, rfl⟩
      · exact ⟨_, hfree, hs, rfl⟩
    · exact ⟨_, rfl, hp ▸ h.dispatching true, rfl⟩
  | watchdogFree =>
    simp only [hp, Option.some.injEq] at hr
    refine ⟨_, hr.symm, ?_, by split_ifs <;> rfl⟩
    split_ifs with hended
    · have hfits := h.fits
      rw [hp] at hfits
      apply h.listenerFree (silent_of_ended h.watchdog hfits hended)
      · exact h.mainQuit (by simp [hp, Phase.mainFreed])
      · simp [hp, Phase.listenerClosed]
    · exact hp ▸ h.dispatching true
  | listenerFree =>
    simp only [hp, Option.some.injEq] at hr
    refine ⟨_, hr.symm, ?_, by split_ifs <;> rfl⟩
    split_ifs with hclients
    · have hfits := h.fits
      rw [hp] at hfits
      refine ⟨h.watchdog, hfits, by simp [hclients], fun _ => ?_, fun _ => ?_⟩
      · exact h.listening (by simp [hp, Phase.listenerClosed])
      · exact h.mainQuit (by simp [hp, Phase.mainFreed])
    · exact hp ▸ h.dispatching true
  | qmpFree =>
    simp only [hp, Option.some.injEq] at hr
    refine ⟨_, hr.symm, ?_, by split_ifs <;> rfl⟩
    split_ifs
    · have hfits := h.fits
      rw [hp] at hfits
      refine ⟨h.watchdog, hfits, fun client hclient => ?_, fun _ => ?_, fun _ => ?_⟩
      · have hc := h.clients client hclient
        rw [hp] at hc
        exact hc
      · exact h.listening (by simp [hp, Phase.listenerClosed])
      · exact h.mainQuit (by simp [hp, Phase.mainFreed])
    · exact hp ▸ h.dispatching true
  | finished => simp [hp] at hr

/-- The run so far: sound, or stopped by a use of the freed main coroutine. -/
def Fine (s : State) : Prop :=
  s.fault = none ∧ Sound s ∨ s.fault = some (.freed .main) ∧ s.phase.mainFreed ∧ s.phase.live

theorem Fine.step (h : Fine s) {label : Label} (hstep : s.step label = some t) : Fine t := by
  unfold State.step at hstep
  by_cases hfault : s.fault = none
  · rcases h with ⟨-, hs⟩ | ⟨hf, -⟩
    · by_cases hcheck : label = .check
      · simp only [hfault, ne_eq, not_true, if_false, hcheck, if_true,
          Option.map_eq_some_iff] at hstep
        obtain ⟨r, hr, rfl⟩ := hstep
        obtain ⟨t, rfl, ht, hf⟩ := hs.loopCheck hr
        exact .inl ⟨hf.trans hfault, ht⟩
      · simp only [hfault, ne_eq, not_true, if_false, hcheck, Option.ite_none_right_eq_some,
          Option.map_eq_some_iff] at hstep
        obtain ⟨-, r, hr, rfl⟩ := hstep
        rcases hs.dispatch_ends hr with ⟨rfl, hfreed, hlive⟩ | ⟨t, rfl, ht, -, hf⟩
        · exact .inr ⟨rfl, hfreed, hlive⟩
        · exact .inl ⟨hf.trans hfault, ht⟩
    · rw [hf] at hfault
      cases hfault
  · simp [hfault] at hstep

theorem step_check (hfault : s.fault = none) : s.step .check = s.loopCheck.map s.settle := by
  simp [State.step, hfault]

theorem step_dispatch (hfault : s.fault = none) (hdispatching : s.dispatching = true)
    {label : Label} (hlabel : label ≠ .check) :
    s.step label = (s.dispatch label).map s.settle := by
  simp [State.step, hfault, hdispatching, hlabel]

end Steps

end Teardown
end ColoDaemon
