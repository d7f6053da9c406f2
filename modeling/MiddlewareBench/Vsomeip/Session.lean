import MiddlewareBench.Lib.Runs
import MiddlewareBench.Vsomeip.EventService
import MiddlewareBench.Vsomeip.ParseOptions

/-!
# A session of the two containers

`bazel_entrypoint.sh` of the service, `EventService` with its handlers and its worker, and
`EventClient` with its handlers and its reporting thread, from the start of the containers
until they leave. They share a directory with two marker files, one that the client writes
once it has subscribed and one that it writes once it has reported.

A step is what one thread does between two points where another can interfere. Several
availability handlers may run at once: each looks at `available_`, lets go of the lock, and
sets it later. Of the stack and the network it is only assumed that nobody hears of a
service that was never offered, and that no subscription arrives that was never sent; what
is sent may be lost, late or repeated. Either process may refuse its options, fail to set up
its application or crash at any time; a command that fails ends the script of the service
(`set -e`), and `docker compose up --exit-code-from` stops either container once the other
has ended.
-/

namespace MiddlewareBench.Vsomeip.Session

open Runs

/-! ## States -/

/-- Where the script of the service container is. -/
inductive ScriptPc
  /-- about to remove the markers of an earlier run -/
  | cleaning
  | building
  /-- the bench runs -/
  | running
  /-- after so many looks for the marker of the client -/
  | waiting (looks : Nat)
  /-- it has come to its end -/
  | left
  /-- it has ended with a command that has failed -/
  | failed
  /-- compose has stopped its container -/
  | killed
  deriving DecidableEq, Repr

/-- Where `EventService::Worker` is. -/
inductive WorkerPc
  | registering
  | subscribing
  /-- after so many looks for the marker of the client -/
  | polling (i : Nat)
  /-- about to publish this frame -/
  | publishing (i : Nat)
  | stopped
  deriving DecidableEq, Repr

/-- Where an `OnAvailability(true)` is that has found `available_` unset. -/
inductive HandlerPc
  | checked
  | subscribed
  | marked
  deriving DecidableEq, Repr

/-- Where `EventClient::WaitAndReport` is. -/
inductive ReporterPc
  /-- the container does not run yet -/
  | absent
  | waiting
  /-- in `RunEchoCalls` -/
  | calling
  /-- waiting for `done_`, for as long as it may -/
  | collecting
  /-- about to write the marker -/
  | touching
  | exiting
  | exited
  /-- the container has ended in any other way -/
  | died
  deriving DecidableEq, Repr

structure Files where
  serviceReady : Bool
  subReady : Bool
  subDone : Bool
  deriving DecidableEq, Repr

structure Service where
  /-- `offer_service` was called. -/
  offered : Bool := false
  registered : Bool := false
  subscribed : Bool := false
  worker : WorkerPc := .registering
  /-- How many frames were published. -/
  published : Nat := 0
  /-- Whether the process has ended, and if so whether it has returned 0. -/
  exited : Option Bool := none
  deriving DecidableEq, Repr

structure Client where
  /-- `request_service` was called. -/
  requested : Bool := false
  registered : Bool := false
  available : Bool := false
  /-- `subscribe` was called. -/
  subscribed : Bool := false
  handlers : List HandlerPc := []
  failed : Bool := false
  reporter : ReporterPc := .absent
  deriving DecidableEq, Repr

structure State where
  files : Files
  script : ScriptPc := .cleaning
  service : Service := {}
  client : Client := {}
  deriving DecidableEq, Repr

/-- Before the containers run there may be any markers. -/
def start (files : Files) : State := { files }

/-! ## Steps -/

/-- The options of the two programs. -/
structure Config where
  pub : Options
  sub : Options

/-- How often the worker looks for the marker, every tenth of a second. -/
def readyPolls : Nat := 600

/-- How often the script looks for the marker, every second. -/
def pubWaitSec (size : UInt64) : Nat :=
  if size ≥ 10485760 then 3600 else if size ≥ 4194304 then 900 else 240

/-- `ParseOptions` refuses the options. -/
def refused (opt : Options) : Bool :=
  match checkOptions opt with
  | .ok _ => false
  | .error _ => true

/-- `main` of `event_service.cc` refuses the options. -/
def serviceRefuses (opt : Options) : Bool :=
  refused opt || decide (opt.size.toNat < kMinFrameBytes)

/-- The process of the service runs, which it does while the script waits for it. -/
def State.Serving (s : State) : Prop :=
  s.script = .running ∧ s.service.exited = none

instance (s : State) : Decidable s.Serving := inferInstanceAs (Decidable (_ ∧ _))

/-- The process of the client runs. -/
def Client.alive (client : Client) : Prop :=
  client.reporter ≠ .absent ∧ client.reporter ≠ .exited ∧ client.reporter ≠ .died

instance (client : Client) : Decidable client.alive := inferInstanceAs (Decidable (_ ∧ _))

inductive ScriptAction
  | clean
  | launch
  | ended
  | look
  | leave
  | fail
  | kill
  deriving DecidableEq, Repr

inductive ServiceAction
  -- handlers
  | offer
  | register
  | onSubscription
  -- worker
  | seeRegistered
  | seeSubscribed
  | poll
  | pollsOver
  | publish
  | stop
  -- the main thread
  | leave
  | die
  deriving DecidableEq, Repr

inductive ClientAction
  | start
  -- handlers
  | request
  | register
  | onAvailability
  | subscribe (handler : Nat)
  | mark (handler : Nat)
  | setAvailable (handler : Nat)
  -- reporting thread
  | proceed
  | giveUp
  | callsOver (failed : Bool)
  | report
  | touch
  | exit
  | die
  deriving DecidableEq, Repr

inductive Action
  | script (a : ScriptAction)
  | service (a : ServiceAction)
  | client (a : ClientAction)
  deriving DecidableEq, Repr

def scriptStep (cfg : Config) (s : State) : ScriptAction → Option State
  | .clean =>
    if s.script = .cleaning then some { s with script := .building, files := ⟨false, false, false⟩ }
    else none
  | .launch =>
    if s.script = .building then
      some { s with
        script := .running
        service.exited := if serviceRefuses cfg.pub then some false else none }
    else none
  | .ended =>
    if s.script = .running ∧ s.service.exited = some true then some { s with script := .waiting 0 }
    else none
  | .look =>
    match s.script with
    | .waiting looks =>
      if looks < pubWaitSec cfg.pub.size then
        some { s with script := if s.files.subDone then .left else .waiting (looks + 1) }
      else none
    | _ => none
  | .leave =>
    match s.script with
    | .waiting looks =>
      if looks < pubWaitSec cfg.pub.size then none else some { s with script := .left }
    | _ => none
  -- a build may fail, too
  | .fail =>
    if s.script = .cleaning ∨ s.script = .building ∨
        s.script = .running ∧ s.service.exited = some false then
      some { s with script := .failed }
    else none
  | .kill =>
    if s.script ≠ .left ∧ s.script ≠ .failed ∧
        (s.client.reporter = .exited ∨ s.client.reporter = .died) then
      some { s with script := .killed }
    else none

/-- A plan that would divide by zero is the end of the process: nothing is left to it then but
to die. -/
def serviceStep (cfg : Config) (s : State) (a : ServiceAction) : Option State :=
  if s.Serving then
    match a with
    | .offer => some { s with
        service.offered := true
        files.serviceReady := true }
    | .register => if s.service.offered then some { s with service.registered := true } else none
    | .onSubscription =>
      if s.client.subscribed then some { s with service.subscribed := true } else none
    | .seeRegistered =>
      if s.service.worker = .registering ∧ s.service.registered then
        some { s with service.worker := .subscribing }
      else none
    | .seeSubscribed =>
      if s.service.worker = .subscribing ∧ s.service.subscribed then
        some { s with service.worker := .polling 0 }
      else none
    | .poll =>
      match s.service.worker with
      | .polling i =>
        if i < readyPolls then
          some { s with
            service.worker := if s.files.subReady then .publishing 0 else .polling (i + 1) }
        else none
      | _ => none
    | .pollsOver =>
      match s.service.worker with
      | .polling i =>
        if i < readyPolls then none else some { s with service.worker := .publishing 0 }
      | _ => none
    | .publish =>
      match s.service.worker with
      | .publishing i =>
        if cfg.pub.plan.isSome ∧ (i : Int) < (EventService.total cfg.pub).toInt then
          some { s with
            service.worker := .publishing (i + 1)
            service.published := s.service.published + 1 }
        else none
      | _ => none
    | .stop =>
      match s.service.worker with
      | .publishing i =>
        if cfg.pub.plan.isSome ∧ (EventService.total cfg.pub).toInt ≤ i then
          some { s with service.worker := .stopped }
        else none
      | _ => none
    -- `start` has returned, and the worker is joined
    | .leave =>
      if s.service.worker = .stopped then some { s with service.exited := some true } else none
    | .die => some { s with service.exited := some false }
  else none

/-- The container is started once the other one is healthy. -/
def clientStep (cfg : Config) (s : State) (a : ClientAction) : Option State :=
  match a with
  | .start =>
    if s.client.reporter = .absent ∧ s.files.serviceReady then
      some { s with client.reporter := if refused cfg.sub then .died else .waiting }
    else none
  | .request => if s.client.alive then some { s with client.requested := true } else none
  | .register =>
    if s.client.alive ∧ s.client.requested then some { s with client.registered := true } else none
  | .onAvailability =>
    if s.client.alive ∧ s.client.requested ∧ s.service.offered then
      some (if s.client.available then s
        else { s with client.handlers := s.client.handlers ++ [.checked] })
    else none
  | .subscribe handler =>
    if s.client.alive ∧ s.client.handlers[handler]? = some .checked ∧ ¬ cfg.sub.rpcCalls > 0 then
      some { s with
        client.subscribed := true
        client.handlers := s.client.handlers.set handler .subscribed }
    else none
  | .mark handler =>
    if s.client.alive ∧ s.client.handlers[handler]? = some .subscribed then
      some { s with
        files.subReady := true
        client.handlers := s.client.handlers.set handler .marked }
    else none
  | .setAvailable handler =>
    if s.client.alive ∧ (s.client.handlers[handler]? = some .marked ∨
        s.client.handlers[handler]? = some .checked ∧ cfg.sub.rpcCalls > 0) then
      some { s with
        client.available := true
        client.handlers := s.client.handlers.eraseIdx handler }
    else none
  | .proceed =>
    if s.client.reporter = .waiting ∧ s.client.registered ∧ s.client.available then
      some { s with client.reporter := if cfg.sub.rpcCalls > 0 then .calling else .collecting }
    else none
  | .giveUp =>
    if s.client.reporter = .waiting ∧ ¬ (s.client.registered ∧ s.client.available) then
      some { s with
        client.failed := true
        client.reporter := .touching }
    else none
  | .callsOver failed =>
    if s.client.reporter = .calling then
      some { s with
        client.failed := failed
        client.reporter := .touching }
    else none
  | .report =>
    if s.client.reporter = .collecting then some { s with client.reporter := .touching } else none
  | .touch =>
    if s.client.reporter = .touching then
      some { s with
        files.subDone := true
        client.reporter := .exiting }
    else none
  | .exit =>
    if s.client.reporter = .exiting then some { s with client.reporter := .exited } else none
  -- also before the process runs, when its build fails, and when compose stops its container
  | .die =>
    if s.client.alive ∨ s.client.reporter = .absent ∧ s.files.serviceReady then
      some { s with client.reporter := .died }
    else none

def step (cfg : Config) (s : State) : Action → Option State
  | .script a => scriptStep cfg s a
  | .service a => serviceStep cfg s a
  | .client a => clientStep cfg s a

/-! ## What a step can do -/

/-- Every rule names what its action has looked at. -/
inductive Step (cfg : Config) (s : State) : Action → State → Prop
  | clean (script : s.script = .cleaning) :
      Step cfg s (.script .clean) { s with script := .building, files := ⟨false, false, false⟩ }
  | launch (script : s.script = .building) : Step cfg s (.script .launch) { s with
        script := .running
        service.exited := if serviceRefuses cfg.pub then some false else none }
  | ended (script : s.script = .running) (returned : s.service.exited = some true) :
      Step cfg s (.script .ended) { s with script := .waiting 0 }
  | look (looks : Nat) (script : s.script = .waiting looks)
      (below : looks < pubWaitSec cfg.pub.size) : Step cfg s (.script .look)
        { s with script := if s.files.subDone then .left else .waiting (looks + 1) }
  | leave (looks : Nat) (script : s.script = .waiting looks)
      (over' : pubWaitSec cfg.pub.size ≤ looks) :
      Step cfg s (.script .leave) { s with script := .left }
  | fail (early : s.script = .cleaning ∨ s.script = .building ∨
      s.script = .running ∧ s.service.exited = some false) :
      Step cfg s (.script .fail) { s with script := .failed }
  | kill (gone : s.client.reporter = .exited ∨ s.client.reporter = .died) :
      Step cfg s (.script .kill) { s with script := .killed }
  | offer (serving : s.Serving) : Step cfg s (.service .offer) { s with
        service.offered := true
        files.serviceReady := true }
  | register (serving : s.Serving) :
      Step cfg s (.service .register) { s with service.registered := true }
  | onSubscription (serving : s.Serving) (sent : s.client.subscribed = true) :
      Step cfg s (.service .onSubscription) { s with service.subscribed := true }
  | seeRegistered (serving : s.Serving) (worker : s.service.worker = .registering)
      (seen : s.service.registered = true) :
      Step cfg s (.service .seeRegistered) { s with service.worker := .subscribing }
  | seeSubscribed (serving : s.Serving) (worker : s.service.worker = .subscribing)
      (seen : s.service.subscribed = true) :
      Step cfg s (.service .seeSubscribed) { s with service.worker := .polling 0 }
  | poll (serving : s.Serving) (i : Nat) (worker : s.service.worker = .polling i)
      (below : i < readyPolls) : Step cfg s (.service .poll) { s with
        service.worker := if s.files.subReady then .publishing 0 else .polling (i + 1) }
  | pollsOver (serving : s.Serving) (i : Nat) (worker : s.service.worker = .polling i)
      (over' : readyPolls ≤ i) :
      Step cfg s (.service .pollsOver) { s with service.worker := .publishing 0 }
  | publish (serving : s.Serving) (i : Nat) (worker : s.service.worker = .publishing i)
      (more : (i : Int) < (EventService.total cfg.pub).toInt) :
      Step cfg s (.service .publish) { s with
        service.worker := .publishing (i + 1)
        service.published := s.service.published + 1 }
  | stop (serving : s.Serving) (i : Nat) (worker : s.service.worker = .publishing i)
      (planned : cfg.pub.plan.isSome) (all : (EventService.total cfg.pub).toInt ≤ i) :
      Step cfg s (.service .stop) { s with service.worker := .stopped }
  | serviceLeave (serving : s.Serving) (stopped : s.service.worker = .stopped) :
      Step cfg s (.service .leave) { s with service.exited := some true }
  | serviceDie (serving : s.Serving) :
      Step cfg s (.service .die) { s with service.exited := some false }
  | start (reporter : s.client.reporter = .absent) : Step cfg s (.client .start)
        { s with client.reporter := if refused cfg.sub then .died else .waiting }
  | request : Step cfg s (.client .request) { s with client.requested := true }
  | clientRegister : Step cfg s (.client .register) { s with client.registered := true }
  | availableAlready : Step cfg s (.client .onAvailability) s
  | onAvailability (offered : s.service.offered = true) :
      Step cfg s (.client .onAvailability)
        { s with client.handlers := s.client.handlers ++ [.checked] }
  | subscribe (handler : Nat) (running : s.client.handlers[handler]? = some .checked)
      (events : ¬ cfg.sub.rpcCalls > 0) : Step cfg s (.client (.subscribe handler)) { s with
        client.subscribed := true
        client.handlers := s.client.handlers.set handler .subscribed }
  | mark (handler : Nat) (running : s.client.handlers[handler]? = some .subscribed) :
      Step cfg s (.client (.mark handler)) { s with
        files.subReady := true
        client.handlers := s.client.handlers.set handler .marked }
  | setAvailable (handler : Nat) (h : HandlerPc) (running : s.client.handlers[handler]? = some h)
      (after : h = .marked ∨ h = .checked ∧ cfg.sub.rpcCalls > 0) :
      Step cfg s (.client (.setAvailable handler)) { s with
        client.available := true
        client.handlers := s.client.handlers.eraseIdx handler }
  | proceed (reporter : s.client.reporter = .waiting) (available : s.client.available = true) :
      Step cfg s (.client .proceed) { s with
        client.reporter := if cfg.sub.rpcCalls > 0 then .calling else .collecting }
  | giveUp (reporter : s.client.reporter = .waiting) : Step cfg s (.client .giveUp) { s with
        client.failed := true
        client.reporter := .touching }
  | callsOver (failed : Bool) (reporter : s.client.reporter = .calling) :
      Step cfg s (.client (.callsOver failed)) { s with
        client.failed := failed
        client.reporter := .touching }
  | report (reporter : s.client.reporter = .collecting) :
      Step cfg s (.client .report) { s with client.reporter := .touching }
  | touch (reporter : s.client.reporter = .touching) : Step cfg s (.client .touch) { s with
        files.subDone := true
        client.reporter := .exiting }
  | exit (reporter : s.client.reporter = .exiting) :
      Step cfg s (.client .exit) { s with client.reporter := .exited }
  | clientDie : Step cfg s (.client .die) { s with client.reporter := .died }

section Inversion

variable {cfg : Config} {s t : State}

theorem scriptStep_cases {a : ScriptAction} (stepped : scriptStep cfg s a = some t) :
    Step cfg s (.script a) t := by
  cases a with
  | clean =>
      obtain ⟨script, rfl⟩ := guard_eq_some.mp stepped
      exact .clean script
  | launch =>
      obtain ⟨script, rfl⟩ := guard_eq_some.mp stepped
      exact .launch script
  | ended =>
      obtain ⟨⟨script, returned⟩, rfl⟩ := guard_eq_some.mp stepped
      exact .ended script returned
  | look =>
      simp only [scriptStep] at stepped
      split at stepped
      · rename_i looks script
        obtain ⟨below, rfl⟩ := guard_eq_some.mp stepped
        exact .look looks script below
      · cases stepped
  | leave =>
      simp only [scriptStep] at stepped
      split at stepped
      · rename_i looks script
        obtain ⟨over', rfl⟩ := unless_eq_some.mp stepped
        exact .leave looks script (Nat.not_lt.mp over')
      · cases stepped
  | fail =>
      obtain ⟨early, rfl⟩ := guard_eq_some.mp stepped
      exact .fail early
  | kill =>
      obtain ⟨⟨-, -, gone⟩, rfl⟩ := guard_eq_some.mp stepped
      exact .kill gone

theorem serviceStep_cases {a : ServiceAction} (stepped : serviceStep cfg s a = some t) :
    Step cfg s (.service a) t := by
  obtain ⟨serving, stepped⟩ := Option.ite_none_right_eq_some.mp stepped
  cases a with
  | offer =>
      cases stepped
      exact .offer serving
  | register =>
      obtain ⟨-, rfl⟩ := guard_eq_some.mp stepped
      exact .register serving
  | onSubscription =>
      obtain ⟨sent, rfl⟩ := guard_eq_some.mp stepped
      exact .onSubscription serving sent
  | seeRegistered =>
      obtain ⟨⟨worker, seen⟩, rfl⟩ := guard_eq_some.mp stepped
      exact .seeRegistered serving worker seen
  | seeSubscribed =>
      obtain ⟨⟨worker, seen⟩, rfl⟩ := guard_eq_some.mp stepped
      exact .seeSubscribed serving worker seen
  | poll =>
      simp only at stepped
      split at stepped
      · rename_i i worker
        obtain ⟨below, rfl⟩ := guard_eq_some.mp stepped
        exact .poll serving i worker below
      · cases stepped
  | pollsOver =>
      simp only at stepped
      split at stepped
      · rename_i i worker
        obtain ⟨over', rfl⟩ := unless_eq_some.mp stepped
        exact .pollsOver serving i worker (Nat.not_lt.mp over')
      · cases stepped
  | publish =>
      simp only at stepped
      split at stepped
      · rename_i i worker
        obtain ⟨⟨-, more⟩, rfl⟩ := guard_eq_some.mp stepped
        exact .publish serving i worker more
      · cases stepped
  | stop =>
      simp only at stepped
      split at stepped
      · rename_i i worker
        obtain ⟨⟨planned, all⟩, rfl⟩ := guard_eq_some.mp stepped
        exact .stop serving i worker planned all
      · cases stepped
  | leave =>
      obtain ⟨stopped, rfl⟩ := guard_eq_some.mp stepped
      exact .serviceLeave serving stopped
  | die =>
      cases stepped
      exact .serviceDie serving

theorem clientStep_cases {a : ClientAction} (stepped : clientStep cfg s a = some t) :
    Step cfg s (.client a) t := by
  cases a with
  | start =>
      obtain ⟨⟨reporter, -⟩, rfl⟩ := guard_eq_some.mp stepped
      exact .start reporter
  | request =>
      obtain ⟨-, rfl⟩ := guard_eq_some.mp stepped
      exact .request
  | register =>
      obtain ⟨-, rfl⟩ := guard_eq_some.mp stepped
      exact .clientRegister
  | onAvailability =>
      obtain ⟨⟨-, -, offered⟩, rfl⟩ := guard_eq_some.mp stepped
      split
      · exact .availableAlready
      · exact .onAvailability offered
  | subscribe handler =>
      obtain ⟨⟨-, running, events⟩, rfl⟩ := guard_eq_some.mp stepped
      exact .subscribe handler running events
  | mark handler =>
      obtain ⟨⟨-, running⟩, rfl⟩ := guard_eq_some.mp stepped
      exact .mark handler running
  | setAvailable handler =>
      obtain ⟨⟨-, after⟩, rfl⟩ := guard_eq_some.mp stepped
      rcases after with running | ⟨running, calls⟩
      · exact .setAvailable handler .marked running (.inl rfl)
      · exact .setAvailable handler .checked running (.inr ⟨rfl, calls⟩)
  | proceed =>
      obtain ⟨⟨reporter, -, available⟩, rfl⟩ := guard_eq_some.mp stepped
      exact .proceed reporter available
  | giveUp =>
      obtain ⟨⟨reporter, -⟩, rfl⟩ := guard_eq_some.mp stepped
      exact .giveUp reporter
  | callsOver failed =>
      obtain ⟨reporter, rfl⟩ := guard_eq_some.mp stepped
      exact .callsOver failed reporter
  | report =>
      obtain ⟨reporter, rfl⟩ := guard_eq_some.mp stepped
      exact .report reporter
  | touch =>
      obtain ⟨reporter, rfl⟩ := guard_eq_some.mp stepped
      exact .touch reporter
  | exit =>
      obtain ⟨reporter, rfl⟩ := guard_eq_some.mp stepped
      exact .exit reporter
  | die =>
      obtain ⟨-, rfl⟩ := guard_eq_some.mp stepped
      exact .clientDie

/-- **Inversion.** -/
theorem step_cases {a : Action} (stepped : step cfg s a = some t) : Step cfg s a t := by
  cases a with
  | script a => exact scriptStep_cases stepped
  | service a => exact serviceStep_cases stepped
  | client a => exact clientStep_cases stepped

end Inversion

end MiddlewareBench.Vsomeip.Session
