import MiddlewareBench.Vsomeip.Session

/-!
# What holds in every session

Nothing is published before the client has subscribed, and the container of the service
does not leave before the client has told its result, unless its bench has failed, the
client is gone, or somebody has waited in vain for as long as they wait. Two invariants
carry this, one about the client (`ClientSafe`) and one about the container of the service
(`ServiceSafe`).
-/

namespace MiddlewareBench.Vsomeip.Session

open Runs

/-! ## What a run did -/

/-- How often a run did what the invariants speak of. `told` counts the results, printed
or given up. -/
structure Log where
  subscriptions : Nat := 0
  marks : Nat := 0
  polls : Nat := 0
  told : Nat := 0
  touches : Nat := 0
  looks : Nat := 0
  deriving DecidableEq, Repr

def Log.add (log : Log) : Action → Log
  | .service .onSubscription => { log with subscriptions := log.subscriptions + 1 }
  | .client (.mark _) => { log with marks := log.marks + 1 }
  | .service .poll => { log with polls := log.polls + 1 }
  | .client .report | .client .giveUp | .client (.callsOver _) => { log with told := log.told + 1 }
  | .client .touch => { log with touches := log.touches + 1 }
  | .script .look => { log with looks := log.looks + 1 }
  | _ => log

def log (acts : List Action) : Log := acts.foldl Log.add {}

theorem log_concat (acts : List Action) (a : Action) : log (acts ++ [a]) = (log acts).add a :=
  List.foldl_concat ..

variable {cfg : Config} {l : Log} {s t : State}

/-! ## The client -/

/-- What the reporting thread has done by each of its points. -/
def Reporting (l : Log) (client : Client) : ReporterPc → Prop
  | .absent | .waiting | .calling => l.told = 0 ∧ l.touches = 0
  | .collecting => (l.told = 0 ∧ l.touches = 0) ∧ client.subscribed = true
  | .touching => l.told = 1 ∧ l.touches = 0
  | .exiting | .exited => l.told = 1 ∧ l.touches = 1
  | .died => True

structure ClientSafe (cfg : Config) (l : Log) (s : State) : Prop where
  unheard : s.service.offered = false →
    s.client.handlers = [] ∧ s.client.subscribed = false ∧ s.client.available = false
  events : s.client.subscribed = true → ¬ cfg.sub.rpcCalls > 0
  handlers : ∀ h ∈ s.client.handlers, h = .checked ∨ s.client.subscribed = true
  available : s.client.available = true → cfg.sub.rpcCalls > 0 ∨ s.client.subscribed = true
  reporting : Reporting l s.client s.client.reporter

theorem clientSafe_start (files : Files) : ClientSafe cfg {} (start files) where
  unheard _ := ⟨rfl, rfl, rfl⟩
  events := nofun
  handlers := nofun
  available := nofun
  reporting := ⟨rfl, rfl⟩

theorem Reporting.congr {l' : Log} {client : Client} {pc : ReporterPc}
    (reporting : Reporting l client pc) (told : l'.told = l.told)
    (touches : l'.touches = l.touches) :
    Reporting l' client pc := by
  cases pc with
  | died => exact trivial
  | _ => simpa only [Reporting, told, touches] using reporting

/-- A step of the other container. -/
theorem ClientSafe.aside {l' : Log} (safe : ClientSafe cfg l s) (client : t.client = s.client)
    (offered : t.service.offered = false → s.service.offered = false) (told : l'.told = l.told)
    (touches : l'.touches = l.touches) : ClientSafe cfg l' t where
  unheard never := by
    rw [client]
    exact safe.unheard (offered never)
  events := by
    rw [client]
    exact safe.events
  handlers := by
    rw [client]
    exact safe.handlers
  available := by
    rw [client]
    exact safe.available
  reporting := by
    rw [client]
    exact safe.reporting.congr told touches

theorem ClientSafe.offered (safe : ClientSafe cfg l s)
    (heard : s.client.handlers ≠ [] ∨ s.client.available = true) : s.service.offered = true := by
  by_contra never
  obtain ⟨none, -, unset⟩ := safe.unheard (Bool.not_eq_true _ ▸ never)
  rcases heard with some | set
  · exact some none
  · rw [unset] at set
    cases set

theorem ne_nil_of_running {hs : List HandlerPc} {handler : Nat} {h : HandlerPc}
    (running : hs[handler]? = some h) : hs ≠ [] := by
  rintro rfl
  cases running

theorem clientSafe_step {a : Action} (safe : ClientSafe cfg l s) (stepped : Step cfg s a t) :
    ClientSafe cfg (l.add a) t := by
  have ⟨unheard, events, handlers, available, reporting⟩ := safe
  cases stepped with
  | clean | launch | ended | look | leave | fail | kill => exact safe.aside rfl id rfl rfl
  | offer => exact safe.aside rfl nofun rfl rfl
  | register | onSubscription | seeRegistered | seeSubscribed | poll | pollsOver | publish | stop
  | serviceLeave | serviceDie => exact safe.aside rfl id rfl rfl
  | start reporter =>
      rw [reporter] at reporting
      refine ⟨unheard, events, handlers, available, ?_⟩
      cases refused cfg.sub with
      | true => exact trivial
      | false => exact reporting
  | request | clientRegister | availableAlready =>
      exact ⟨unheard, events, handlers, available, reporting⟩
  | onAvailability offered =>
      refine ⟨fun never => ?_, events, ?_, available, reporting⟩
      · rw [offered] at never
        cases never
      · intro h member
        rcases List.mem_append.mp member with old | new
        · exact handlers h old
        · exact .inl (List.mem_singleton.mp new)
  | subscribe handler running calls =>
      have offered := safe.offered (.inl (ne_nil_of_running running))
      refine ⟨fun never => ?_, fun _ => calls, fun _ _ => .inr rfl, fun _ => .inr rfl, ?_⟩
      · rw [offered] at never
        cases never
      · cases pc : s.client.reporter <;> rw [pc] at reporting
        case collecting => exact ⟨reporting.1, rfl⟩
        all_goals exact reporting
  | mark handler running =>
      have offered := safe.offered (.inl (ne_nil_of_running running))
      have subscribed : s.client.subscribed = true := by
        rcases handlers _ (List.mem_of_getElem? running) with checked | subscribed
        · cases checked
        · exact subscribed
      refine ⟨fun never => ?_, events, fun _ _ => .inr subscribed, available, reporting⟩
      rw [offered] at never
      cases never
  | setAvailable handler h running after =>
      have offered := safe.offered (.inl (ne_nil_of_running running))
      refine ⟨fun never => ?_, events, ?_, fun _ => ?_, reporting⟩
      · rw [offered] at never
        cases never
      · exact fun h member => handlers h (List.mem_of_mem_eraseIdx member)
      · rcases after with rfl | ⟨-, calls⟩
        · rcases handlers _ (List.mem_of_getElem? running) with checked | subscribed
          · cases checked
          · exact .inr subscribed
        · exact .inl calls
  | proceed reporter set =>
      rw [reporter] at reporting
      refine ⟨unheard, events, handlers, available, ?_⟩
      by_cases calls : cfg.sub.rpcCalls > 0
      · simp only [if_pos calls]
        exact reporting
      · simp only [if_neg calls]
        exact ⟨reporting, (available set).resolve_left calls⟩
  | giveUp reporter | callsOver failed reporter =>
      rw [reporter] at reporting
      exact ⟨unheard, events, handlers, available, congrArg Nat.succ reporting.1, reporting.2⟩
  | report reporter =>
      rw [reporter] at reporting
      exact ⟨unheard, events, handlers, available, congrArg Nat.succ reporting.1.1, reporting.1.2⟩
  | touch reporter =>
      rw [reporter] at reporting
      exact ⟨unheard, events, handlers, available, reporting.1, congrArg Nat.succ reporting.2⟩
  | exit reporter =>
      rw [reporter] at reporting
      exact ⟨unheard, events, handlers, available, reporting⟩
  | clientDie => exact ⟨unheard, events, handlers, available, trivial⟩

theorem subscribed_step {a : Action} (stepped : Step cfg s a t)
    (subscribed : s.client.subscribed = true) : t.client.subscribed = true := by
  cases stepped with
  | subscribe => rfl
  | _ => exact subscribed

/-- A client that is gone does not come back. -/
theorem died_step {a : Action} (stepped : Step cfg s a t) (died : s.client.reporter = .died) :
    t.client.reporter = .died := by
  cases stepped with
  | start reporter | proceed reporter | giveUp reporter | callsOver _ reporter | report reporter
  | touch reporter | exit reporter =>
      rw [died] at reporter
      cases reporter
  | clientDie => rfl
  | _ => exact died

/-! ## The container of the service -/

/-- The worker may publish. -/
structure Admitted (l : Log) (service : Service) : Prop where
  registered : service.registered = true
  subscribed : service.subscribed = true
  marked : 0 < l.marks ∨ l.polls = readyPolls

/-- What has happened by each point of the worker. -/
def Working (cfg : Config) (l : Log) (service : Service) : WorkerPc → Prop
  | .registering => l.polls = 0 ∧ service.published = 0
  | .subscribing => service.registered = true ∧ l.polls = 0 ∧ service.published = 0
  | .polling i => service.registered = true ∧ service.subscribed = true ∧
      (l.polls = i ∧ i ≤ readyPolls) ∧ service.published = 0
  | .publishing i => Admitted l service ∧ service.published = i ∧
      i ≤ (EventService.total cfg.pub).toInt.toNat
  | .stopped => Admitted l service ∧ cfg.pub.plan.isSome ∧
      service.published = (EventService.total cfg.pub).toInt.toNat

/-- What has happened by each point of the script. -/
def Scripted (cfg : Config) (l : Log) (service : Service) : ScriptPc → Prop
  | .cleaning | .building => l.looks = 0 ∧ service = {}
  | .running => l.looks = 0
  | .waiting looks => service.worker = .stopped ∧ l.looks = looks ∧
      looks ≤ pubWaitSec cfg.pub.size
  | .left => service.worker = .stopped ∧
      ((l.told = 1 ∧ l.touches = 1) ∨ l.looks = pubWaitSec cfg.pub.size)
  | .failed => service.exited ≠ some true
  | .killed => True

/-- The script has removed the old markers, and nothing has stopped it since. -/
def ScriptPc.Cleaned : ScriptPc → Prop
  | .cleaning | .failed | .killed => False
  | .building | .running | .waiting _ | .left => True

/-- The markers that are left after the script has removed the old ones are of this
session. -/
structure ServiceSafe (cfg : Config) (l : Log) (s : State) : Prop where
  ready : s.script.Cleaned → s.files.subReady = true → 0 < l.marks
  done : s.script.Cleaned → s.files.subDone = true → l.told = 1 ∧ l.touches = 1
  accepted : s.service.subscribed = true → 0 < l.subscriptions ∧ s.client.subscribed = true
  working : Working cfg l s.service s.service.worker
  returned : s.service.exited = some true → s.service.worker = .stopped
  scripted : Scripted cfg l s.service s.script
  killed : s.script = .killed → l.told = 1 ∧ l.touches = 1 ∨ s.client.reporter = .died

theorem serviceSafe_start (files : Files) : ServiceSafe cfg {} (start files) where
  ready := nofun
  done := nofun
  accepted := nofun
  working := ⟨rfl, rfl⟩
  returned := nofun
  scripted := ⟨rfl, rfl⟩
  killed := nofun

theorem Working.grow {l' : Log} {service service' : Service} {pc : WorkerPc}
    (working : Working cfg l service pc)
    (registered : service.registered = true → service'.registered = true)
    (subscribed : service.subscribed = true → service'.subscribed = true)
    (published : service'.published = service.published) (marks : l.marks ≤ l'.marks)
    (polls : l'.polls = l.polls) : Working cfg l' service' pc := by
  have admitted : Admitted l service → Admitted l' service' := by
    intro before
    refine ⟨registered before.registered, subscribed before.subscribed, ?_⟩
    rw [polls]
    exact before.marked.imp_left fun some => Nat.lt_of_lt_of_le some marks
  unfold Working at working ⊢
  rw [published, polls]
  cases pc with
  | registering => exact working
  | subscribing => exact ⟨registered working.1, working.2⟩
  | polling => exact ⟨registered working.1, subscribed working.2.1, working.2.2⟩
  | publishing | stopped => exact ⟨admitted working.1, working.2⟩

/-- A step of the client. Its thread writes the second marker only once. -/
theorem ServiceSafe.aside {l' : Log} (safe : ServiceSafe cfg l s) (script : t.script = s.script)
    (service : t.service = s.service)
    (subscribed : s.client.subscribed = true → t.client.subscribed = true)
    (died : s.client.reporter = .died → t.client.reporter = .died)
    (ready : t.files.subReady = true → s.files.subReady = true ∨ 0 < l'.marks)
    (done : t.files.subDone = true → s.files.subDone = true ∨ l'.told = 1 ∧ l'.touches = 1)
    (marks : l.marks ≤ l'.marks)
    (told : l.told = 1 ∧ l.touches = 1 → l'.told = 1 ∧ l'.touches = 1)
    (same : l'.subscriptions = l.subscriptions ∧ l'.polls = l.polls ∧ l'.looks = l.looks) :
    ServiceSafe cfg l' t where
  ready cleaned there := by
    rw [script] at cleaned
    rcases ready there with old | new
    · exact Nat.lt_of_lt_of_le (safe.ready cleaned old) marks
    · exact new
  done cleaned there := by
    rw [script] at cleaned
    exact (done there).elim (fun old => told (safe.done cleaned old)) id
  accepted yes := by
    rw [service] at yes
    rw [same.1]
    exact ⟨(safe.accepted yes).1, subscribed (safe.accepted yes).2⟩
  working := by
    rw [service]
    exact safe.working.grow id id rfl marks same.2.1
  returned := by
    rw [service]
    exact safe.returned
  scripted := by
    have scripted := safe.scripted
    rw [service, script]
    cases pc : s.script <;> rw [pc] at scripted
    case left =>
      exact ⟨scripted.1, scripted.2.imp told fun all => same.2.2.trans all⟩
    case killed => exact trivial
    all_goals simpa only [Scripted, same.2.2] using scripted
  killed now := by
    rw [script] at now
    exact (safe.killed now).imp told died

/-- A step of the process of the service. -/
theorem ServiceSafe.serve {l' : Log} (safe : ServiceSafe cfg l s) (serving : s.Serving)
    (script : t.script = s.script) (client : t.client = s.client)
    (files : t.files.subReady = s.files.subReady ∧ t.files.subDone = s.files.subDone)
    (accepted : t.service.subscribed = true → 0 < l'.subscriptions ∧ s.client.subscribed = true)
    (working : Working cfg l' t.service t.service.worker)
    (returned : t.service.exited = some true → t.service.worker = .stopped)
    (same : l'.marks = l.marks ∧ l'.told = l.told ∧ l'.touches = l.touches ∧ l'.looks = l.looks) :
    ServiceSafe cfg l' t := by
  rcases same with ⟨marks, told, touches, looks⟩
  have cleaned : s.script.Cleaned := by
    rw [serving.1]
    trivial
  have scripted := safe.scripted
  rw [serving.1] at scripted
  refine ⟨?_, ?_, ?_, working, returned, ?_, ?_⟩
  · intro _ there
    rw [marks]
    exact safe.ready cleaned (files.1 ▸ there)
  · intro _ there
    rw [told, touches]
    exact safe.done cleaned (files.2 ▸ there)
  · rw [client]
    exact accepted
  · rw [script, serving.1]
    exact looks.trans scripted
  · rw [script, serving.1]
    nofun

/-- The process has not returned while it serves. -/
theorem State.Serving.returned {service : Service} (serving : s.Serving)
    (same : service.exited = s.service.exited) :
    service.exited = some true → service.worker = .stopped := by
  rw [same, serving.2]
  nofun

theorem serviceSafe_step {a : Action} (client : ClientSafe cfg l s) (safe : ServiceSafe cfg l s)
    (stepped : Step cfg s a t) : ServiceSafe cfg (l.add a) t := by
  have mono := subscribed_step stepped
  have gone := died_step stepped
  have ⟨ready, done, accepted, working, returned, scripted, killed⟩ := safe
  have reporting := client.reporting
  cases stepped with
  | clean script =>
      rw [script] at scripted
      exact ⟨nofun, nofun, accepted, working, returned, scripted, nofun⟩
  | launch script =>
      rw [script] at scripted ready done
      refine ⟨fun _ => ready trivial, fun _ => done trivial, accepted,
        working.grow id id rfl le_rfl rfl, ?_, scripted.1, nofun⟩
      cases serviceRefuses cfg.pub <;> nofun
  | ended script over' =>
      rw [script] at scripted ready done
      exact ⟨fun _ => ready trivial, fun _ => done trivial, accepted, working, returned,
        ⟨returned over', scripted, Nat.zero_le _⟩, nofun⟩
  | look looks script below =>
      rw [script] at scripted ready done
      obtain ⟨stopped, rfl, -⟩ := scripted
      refine ⟨fun _ => ready trivial, fun _ => done trivial, accepted,
        working.grow id id rfl le_rfl rfl, returned, ?_, ?_⟩
      · cases there : s.files.subDone with
        | true => exact ⟨stopped, .inl (done trivial there)⟩
        | false => exact ⟨stopped, rfl, below⟩
      · cases s.files.subDone <;> nofun
  | leave looks script over' =>
      rw [script] at scripted ready done
      obtain ⟨stopped, rfl, atMost⟩ := scripted
      exact ⟨fun _ => ready trivial, fun _ => done trivial, accepted, working, returned,
        ⟨stopped, .inr (Nat.le_antisymm atMost over')⟩, nofun⟩
  | fail early =>
      refine ⟨nofun, nofun, accepted, working, returned, ?_, nofun⟩
      show s.service.exited ≠ some true
      rcases early with script | script | ⟨-, exited⟩
      · rw [script] at scripted
        rw [scripted.2]
        nofun
      · rw [script] at scripted
        rw [scripted.2]
        nofun
      · rw [exited]
        nofun
  | kill left =>
      refine ⟨nofun, nofun, accepted, working, returned, trivial, fun _ => ?_⟩
      rcases left with exited | died
      · rw [exited] at reporting
        exact .inl reporting
      · exact .inr died
  | offer serving =>
      exact safe.serve serving rfl rfl ⟨rfl, rfl⟩ accepted (working.grow id id rfl le_rfl rfl)
        (serving.returned rfl) ⟨rfl, rfl, rfl, rfl⟩
  | register serving =>
      exact safe.serve serving rfl rfl ⟨rfl, rfl⟩ accepted
        (working.grow (fun _ => rfl) id rfl le_rfl rfl) (serving.returned rfl)
        ⟨rfl, rfl, rfl, rfl⟩
  | onSubscription serving sent =>
      exact safe.serve serving rfl rfl ⟨rfl, rfl⟩ (fun _ => ⟨Nat.succ_pos _, sent⟩)
        (working.grow id (fun _ => rfl) rfl le_rfl rfl) (serving.returned rfl)
        ⟨rfl, rfl, rfl, rfl⟩
  | seeRegistered serving worker seen =>
      rw [worker] at working
      exact safe.serve serving rfl rfl ⟨rfl, rfl⟩ accepted ⟨seen, working⟩ (serving.returned rfl)
        ⟨rfl, rfl, rfl, rfl⟩
  | seeSubscribed serving worker seen =>
      rw [worker] at working
      obtain ⟨registered, polls, published⟩ := working
      exact safe.serve serving rfl rfl ⟨rfl, rfl⟩ accepted
        ⟨registered, seen, ⟨polls, Nat.zero_le _⟩, published⟩ (serving.returned rfl)
        ⟨rfl, rfl, rfl, rfl⟩
  | poll serving i worker below =>
      rw [worker] at working
      obtain ⟨registered, subscribed, ⟨rfl, -⟩, published⟩ := working
      refine safe.serve serving rfl rfl ⟨rfl, rfl⟩ accepted ?_ (serving.returned rfl)
        ⟨rfl, rfl, rfl, rfl⟩
      cases there : s.files.subReady with
      | true =>
          have marked := ready (by rw [serving.1]; trivial) there
          exact ⟨⟨registered, subscribed, .inl marked⟩, published, Nat.zero_le _⟩
      | false => exact ⟨registered, subscribed, ⟨rfl, below⟩, published⟩
  | pollsOver serving i worker over' =>
      rw [worker] at working
      obtain ⟨registered, subscribed, ⟨rfl, atMost⟩, published⟩ := working
      exact safe.serve serving rfl rfl ⟨rfl, rfl⟩ accepted
        ⟨⟨registered, subscribed, .inr (Nat.le_antisymm atMost over')⟩, published, Nat.zero_le _⟩
        (serving.returned rfl) ⟨rfl, rfl, rfl, rfl⟩
  | publish serving i worker more =>
      rw [worker] at working
      obtain ⟨⟨registered, subscribed, marked⟩, rfl, -⟩ := working
      exact safe.serve serving rfl rfl ⟨rfl, rfl⟩ accepted
        ⟨⟨registered, subscribed, marked⟩, rfl, by omega⟩ (serving.returned rfl)
        ⟨rfl, rfl, rfl, rfl⟩
  | stop serving i worker planned all =>
      rw [worker] at working
      obtain ⟨⟨registered, subscribed, marked⟩, rfl, atMost⟩ := working
      exact safe.serve serving rfl rfl ⟨rfl, rfl⟩ accepted
        ⟨⟨registered, subscribed, marked⟩, planned, by dsimp only; omega⟩ (fun _ => rfl)
        ⟨rfl, rfl, rfl, rfl⟩
  | serviceLeave serving stopped =>
      exact safe.serve serving rfl rfl ⟨rfl, rfl⟩ accepted (working.grow id id rfl le_rfl rfl)
        (fun _ => stopped) ⟨rfl, rfl, rfl, rfl⟩
  | serviceDie serving =>
      exact safe.serve serving rfl rfl ⟨rfl, rfl⟩ accepted (working.grow id id rfl le_rfl rfl)
        nofun ⟨rfl, rfl, rfl, rfl⟩
  | start | request | clientRegister | availableAlready | onAvailability | subscribe | setAvailable
  | proceed | exit | clientDie =>
      exact safe.aside rfl rfl mono gone .inl .inl le_rfl id ⟨rfl, rfl, rfl⟩
  | mark handler running =>
      exact safe.aside rfl rfl mono gone (fun _ => .inr (Nat.succ_pos _)) .inl (Nat.le_succ _) id
        ⟨rfl, rfl, rfl⟩
  | giveUp reporter | callsOver failed reporter =>
      rw [reporter] at reporting
      refine safe.aside rfl rfl mono gone .inl .inl le_rfl (fun both => ?_) ⟨rfl, rfl, rfl⟩
      rw [reporting.1] at both
      exact absurd both.1 Nat.zero_ne_one
  | report reporter =>
      rw [reporter] at reporting
      refine safe.aside rfl rfl mono gone .inl .inl le_rfl (fun both => ?_) ⟨rfl, rfl, rfl⟩
      rw [reporting.1.1] at both
      exact absurd both.1 Nat.zero_ne_one
  | touch reporter =>
      rw [reporter] at reporting
      have both : (l.add (.client .touch)).told = 1 ∧ (l.add (.client .touch)).touches = 1 :=
        ⟨reporting.1, congrArg Nat.succ reporting.2⟩
      exact safe.aside rfl rfl mono gone .inl (fun _ => .inr both) le_rfl (fun _ => both)
        ⟨rfl, rfl, rfl⟩

theorem run_safe {files : Files} {acts : List Action}
    (ran : run (step cfg) (start files) acts = some s) :
    ClientSafe cfg (log acts) s ∧ ServiceSafe cfg (log acts) s := by
  refine run_history (P := fun acts s => ClientSafe cfg (log acts) s ∧ ServiceSafe cfg (log acts) s)
    ⟨clientSafe_start files, serviceSafe_start files⟩ ?_ ran
  intro past m a t safe stepped
  have cases := step_cases stepped
  rw [log_concat]
  exact ⟨clientSafe_step safe.1 cases, serviceSafe_step safe.1 safe.2 cases⟩

/-! ## The session -/

/-- **Nobody publishes to nobody.** In every session, whatever markers an earlier one has
left: when the worker publishes a frame, or withdraws the service, the client has called
`subscribe`, the service has accepted a subscription, and the client of this session has
written its marker or the worker has looked for one six hundred times. With calls to make the client
never subscribes, and none of this ever happens. -/
theorem publish_after_handshake (cfg : Config) (files : Files) (acts : List Action) (s t : State)
    (ran : run (step cfg) (start files) acts = some s) (a : ServiceAction)
    (one : a = .publish ∨ a = .stop) (stepped : step cfg s (.service a) = some t) :
    s.client.subscribed = true ∧ ¬ cfg.sub.rpcCalls > 0 ∧ 0 < (log acts).subscriptions ∧
      (0 < (log acts).marks ∨ (log acts).polls = readyPolls) := by
  obtain ⟨client, service⟩ := run_safe ran
  have working := service.working
  have admitted : Admitted (log acts) s.service := by
    rcases one with rfl | rfl
    · cases step_cases stepped with
      | publish script i worker =>
          rw [worker] at working
          exact working.1
    · cases step_cases stepped with
      | stop script i worker =>
          rw [worker] at working
          exact working.1
  obtain ⟨accepted, subscribed⟩ := service.accepted admitted.subscribed
  exact ⟨subscribed, client.events subscribed, accepted, admitted.marked⟩

/-- One frame, and no warmup. -/
def oneFrame : Config := ⟨{ count := 1, warmup := 0 }, {}⟩

/-- A session up to the first frame. -/
def shaken : List Action :=
  [.script .clean, .script .launch, .service .offer, .client .start, .client .request,
    .client .onAvailability, .service .register, .client (.subscribe 0), .service .seeRegistered,
    .client (.mark 0), .service .onSubscription, .service .seeSubscribed, .service .poll]

/-- The markers of an earlier session are there. -/
theorem publish_after_handshake_shaken :
    ∃ s t, run (step oneFrame) (start ⟨false, true, true⟩) shaken = some s ∧
      step oneFrame s (.service .publish) = some t ∧ s.client.subscribed = true := by
  have publishes : ((run (step oneFrame) (start ⟨false, true, true⟩) shaken).bind fun s =>
      step oneFrame s (.service .publish)).isSome := by decide
  obtain ⟨t, published⟩ := Option.isSome_iff_exists.mp publishes
  obtain ⟨s, ran, stepped⟩ := Option.bind_eq_some_iff.mp published
  exact ⟨s, t, ran, stepped, (publish_after_handshake oneFrame _ shaken s t ran .publish (.inl rfl)
    stepped).1⟩

theorem Working.published_le {service : Service} {pc : WorkerPc}
    (working : Working cfg l service pc) :
    service.published ≤ (EventService.total cfg.pub).toInt.toNat := by
  cases pc with
  | registering => exact working.2 ▸ Nat.zero_le _
  | subscribing => exact working.2.2 ▸ Nat.zero_le _
  | polling => exact working.2.2.2 ▸ Nat.zero_le _
  | publishing => exact working.2.1 ▸ working.2.2
  | stopped => exact working.2.2.le

/-- **The service outlives the client.** The container of the service ends in one of three
ways. Where its script comes to its end, its bench has published every frame, and the client
has told its one result and written its marker, or the script has looked for that as often
as it may. Where a command has failed, the bench has not returned 0. Where compose has
stopped it, the client has told its one result and written its marker, or has died. There
are never more frames than were asked for. -/
theorem leaves_after_result (cfg : Config) (files : Files) (acts : List Action) (s : State)
    (ran : run (step cfg) (start files) acts = some s) :
    s.service.published ≤ (EventService.total cfg.pub).toInt.toNat ∧
    (s.script = .left → cfg.pub.plan.isSome ∧
      s.service.published = (EventService.total cfg.pub).toInt.toNat ∧
      ((log acts).told = 1 ∧ (log acts).touches = 1 ∨
        (log acts).looks = pubWaitSec cfg.pub.size)) ∧
    (s.script = .failed → s.service.exited ≠ some true) ∧
    (s.script = .killed →
      (log acts).told = 1 ∧ (log acts).touches = 1 ∨ s.client.reporter = .died) := by
  obtain ⟨-, -, -, -, working, -, scripted, killed⟩ := run_safe ran
  refine ⟨working.published_le, fun left => ?_, fun failed => ?_, killed⟩
  · rw [left] at scripted
    rw [scripted.1] at working
    exact ⟨working.2.1, working.2.2, scripted.2⟩
  · rw [failed] at scripted
    exact scripted

/-- The client tells its result after the frame is published, with time to spare. -/
theorem leaves_after_result_shaken : ∃ s, run (step oneFrame) (start ⟨false, true, true⟩)
    (shaken ++ [.service .publish, .service .stop, .service .leave, .script .ended,
      .script .look, .client .register, .client (.setAvailable 0), .client .proceed,
      .client .report, .client .touch, .script .look]) = some s ∧ s.service.published = 1 := by
  have leaves : (run (step oneFrame) (start ⟨false, true, true⟩)
      (shaken ++ [.service .publish, .service .stop, .service .leave, .script .ended,
        .script .look, .client .register, .client (.setAvailable 0), .client .proceed,
        .client .report, .client .touch, .script .look])).map State.script = some .left := by
    decide
  obtain ⟨s, ran, left⟩ := Option.map_eq_some_iff.mp leaves
  exact ⟨s, ran, ((leaves_after_result oneFrame _ _ s ran).2.1 left).2.1⟩

end MiddlewareBench.Vsomeip.Session
