import MiddlewareBench.Snapshot.FullRun

/-!
# One run of the two processes

`run.sh` lies between `run_snapshot.sh` and the processes of a run. Its variables reach both
of them through `docker-compose.yml` and `bazel_entrypoint.sh`, so that they run with the
same options, if the service gets as far as to let the client start (`options_agree`); and it
takes the line of the client from the logs of its container, so that the row of a run is what
its client has printed (`cell_printed`).
-/

namespace MiddlewareBench.Snapshot

open CText DecimalText Fallible ShellText Vsomeip

/-! ## Variables -/

/-- The variables that `run.sh` reads, empty where unset. -/
structure RunEnv where
  stack : String
  size : String
  count : String
  rateHz : String
  warmup : String
  maxDatagram : String
  rpcCalls : String
  transport : String

/-- The defaults of `run.sh`, which those of `docker-compose.yml` repeat. -/
def RunEnv.filled (env : RunEnv) : RunEnv where
  stack := orDefault env.stack "sgmenon"
  size := orDefault env.size "4096"
  count := orDefault env.count "1000"
  rateHz := orDefault env.rateHz "1000"
  warmup := orDefault env.warmup "50"
  maxDatagram := orDefault env.maxDatagram "1400"
  rpcCalls := orDefault env.rpcCalls "0"
  transport := orDefault env.transport "udp"

/-- The stacks and transports that `run.sh` accepts, and `bazel_entrypoint.sh` again. -/
def RunEnv.Accepted (env : RunEnv) : Prop :=
  (env.stack = "covesa" ∨ env.stack = "sgmenon") ∧ (env.transport = "udp" ∨ env.transport = "tcp")

instance (env : RunEnv) : Decidable env.Accepted := inferInstanceAs (Decidable (_ ∧ _))

inductive Role
  | service
  | client
  deriving DecidableEq

/-- The environment of a container, where only that of the client has `RPC_CALLS`. -/
def containerEnv (env : RunEnv) : Role → RunEnv
  | .service => { env.filled with rpcCalls := "" }
  | .client => env.filled

/-- `bench_args`. -/
def RunEnv.args (env : RunEnv) : List String :=
  benchArgs env.stack env.size env.count env.warmup env.rateHz env.maxDatagram env.transport
    env.rpcCalls

/-- The arguments that `bazel_entrypoint.sh` starts its process with: it has the same
defaults, but for the stack, which it must be given. -/
def entrypointArgs (env : RunEnv) : Option (List String) :=
  if env.stack ≠ "" ∧ env.filled.Accepted then some env.filled.args else none

/-- The arguments of a process where its container is started, unless `run.sh` or its own
script refuses to start it. -/
def processArgs (host : RunEnv) (role : Role) : Option (List String) :=
  if host.filled.Accepted then entrypointArgs (containerEnv host.filled role) else none

/-- What the service makes of its arguments, if it is started. -/
def serviceStarts (atof : String → Double) (program : String) (host : RunEnv) :
    Option (Except String Options) :=
  (processArgs host .service).map (serviceOptions atof program)

/-- Whether the container of the service becomes healthy: not if it has refused its options,
and `ready` says whether a service that runs with some options gets as far as to offer. -/
def healthy (ready : Options → Bool) : Option (Except String Options) → Bool
  | some (.ok opt) => ready opt
  | some (.error _) => false
  | none => false

/-- What the client makes of its arguments, if compose starts its container, which waits for
that of the service to be healthy. -/
def clientStarts (atof : String → Double) (program program' : String) (host : RunEnv)
    (ready : Options → Bool) : Option (Except String Options) :=
  if healthy ready (serviceStarts atof program host) then
    (processArgs host .client).map (clientOptions atof program')
  else none

/-! ## The log -/

/-- What docker does for `run.sh`: the lines that are written before the containers are
started, those of `docker compose up`, and those of `docker compose logs sub`, and which of
these succeed; `rpcAsked` is whether the script looks for the lines of calls. Nothing that
`grep -E` gets has a NUL in it, for which it would say of the rest only that it matches. -/
structure Compose where
  before : List (List Char)
  built : Bool
  up : List (List Char)
  upSucceeded : Bool
  logs : List (List Char)
  logsSucceeded : Bool
  rpcAsked : Bool
  whole : ∀ line ∈ before ++ up ++ logs, '\n' ∉ line
  text : ∀ line ∈ up ++ logs, '\x00' ∉ line

namespace Compose

/-- The lines of calls in what `tee` has kept. -/
def rpcLines (compose : Compose) : List (List Char) :=
  if compose.rpcAsked then
    (compose.up.filterMap afterBar).filter fun line => "rpc".toList.isPrefixOf line
  else []

/-- The three ways to the line of the client, each tried where the one before it fails. -/
def resultLines (compose : Compose) : List (List Char) :=
  let logged := (compose.logs.filterMap afterBar).filter isBenchLine
  let shown := (compose.up.filterMap afterBar).filter isBenchLine
  if compose.logsSucceeded ∧ logged ≠ [] then logged
  else if shown ≠ [] then logged ++ shown
  else logged ++ compose.up.filter isBenchLine

/-- `run.sh`. -/
def runSh (compose : Compose) : RunLog :=
  if compose.built then
    if compose.upSucceeded then
      ⟨true, String.ofList (unlines (compose.before ++ compose.up ++ "== result ==".toList ::
        (compose.rpcLines ++ compose.resultLines)))⟩
    else ⟨false, String.ofList (unlines (compose.before ++ compose.up))⟩
  else ⟨false, String.ofList (unlines compose.before)⟩

end Compose

/-! ## The options of the processes -/

section Options

variable {atof : String → Double} {program program' : String} {host env : RunEnv} {role : Role}

/-- The calls that a process is asked for. -/
def Role.calls (rpcCalls : String) : Role → String
  | .service => "0"
  | .client => rpcCalls

/-- The defaults are used once. -/
theorem filled_containerEnv : (containerEnv env.filled role).filled =
    { env.filled with rpcCalls := role.calls env.filled.rpcCalls } := by
  have once : ∀ value first : String, first ≠ "" →
      orDefault (orDefault (orDefault value first) first) first = orDefault value first := by
    intro value first some'
    rw [orDefault_orDefault some', orDefault_orDefault some']
  unfold containerEnv RunEnv.filled
  cases role with
  | service =>
      dsimp only
      congr 1 <;> exact once _ _ (by decide)
  | client =>
      dsimp only
      congr 1 <;> exact once _ _ (by decide)

theorem stack_containerEnv : (containerEnv env.filled role).stack ≠ "" := by
  have filled : env.filled.filled.stack ≠ "" := orDefault_ne (by decide)
  cases role <;> exact filled

theorem processArgs_eq : processArgs host role = if host.filled.Accepted then
    some { host.filled with rpcCalls := role.calls host.filled.rpcCalls : RunEnv }.args
      else none := by
  unfold processArgs entrypointArgs
  rw [filled_containerEnv]
  by_cases accepted : host.filled.Accepted
  · rw [if_pos accepted, if_pos accepted, if_pos ⟨stack_containerEnv, accepted⟩]
  · rw [if_neg accepted, if_neg accepted]

/-- What the arguments say. -/
def RunEnv.options (atof : String → Double) (env : RunEnv) : Options where
  stack := env.stack
  size := strtoull env.size
  count := atoi env.count
  warmup := atoi env.warmup
  rateHz := atof env.rateHz
  maxDatagram := strtoull env.maxDatagram
  transport := env.transport
  rpcCalls := atoi env.rpcCalls

theorem parseOptions_args :
    parseOptions atof program env.args = checkOptions (env.options atof) := by
  have ran : env.args.foldlM (parseArg atof program) {} = .ok (env.options atof) := by
    simp [RunEnv.args, RunEnv.options, benchArgs, parseArg, take, List.dropPrefix?,
      String.toList_append, toString_self, bind, pure, Except.bind, Except.pure]
  unfold parseOptions
  rw [ran]
  rfl

/-- The number of calls is nothing the checks look at. -/
theorem checkOptions_calls (opt : Options) (rpcCalls : Int32) :
    checkOptions { opt with rpcCalls } =
      (checkOptions opt).map fun out => { out with rpcCalls } := by
  unfold checkOptions
  dsimp only
  split
  · rfl
  · split <;> rfl

/-- A stack that is named keeps its name. -/
theorem map_named {opt : Options} (given : opt.stack ≠ "") :
    (checkOptions opt).map Options.named = checkOptions opt := by
  have own : opt.named = opt := if_neg given
  cases checked : checkOptions opt with
  | error text => rfl
  | ok out =>
      obtain ⟨rfl, -⟩ := accepted_of_checkOptions checked
      exact congrArg Except.ok own

theorem stack_filled : env.filled.stack ≠ "" := orDefault_ne (by decide)

theorem clientOptions_args : clientOptions atof program env.filled.args =
    checkOptions (env.filled.options atof) := by
  rw [← map_named stack_filled, ← parseOptions_args]
  rfl

/-- The service serves the options of the client, but for its calls, unless the frames are
too short for it. -/
def served (opt : Options) : Except String Options :=
  if opt.size.toNat < kMinFrameBytes then .error s!"--size must be >= {kMinFrameBytes}\n"
  else .ok { opt with rpcCalls := 0 }

theorem isSome_processArgs : (processArgs host role).isSome ↔ host.filled.Accepted := by
  rw [processArgs_eq]
  split
  · rename_i accepted
    simp [accepted]
  · rename_i refused
    simp [refused]

/-- The service refuses what the client would refuse, with the same text, and accepts of the
rest what has room for a chunk header and a stamp. -/
theorem serviceStarts_eq : serviceStarts atof program host =
    (processArgs host .client).map fun args => (clientOptions atof program' args).bind served := by
  unfold serviceStarts
  rw [processArgs_eq, processArgs_eq]
  split
  · rename_i accepted
    refine congrArg some ?_
    have service : parseOptions atof program { host.filled with rpcCalls := "0" }.args =
        (checkOptions (host.filled.options atof)).map fun out => { out with rpcCalls := 0 } := by
      have none' : atoi "0" = 0 := by decide +kernel
      rw [parseOptions_args, ← checkOptions_calls]
      unfold RunEnv.options
      rw [none']
    show serviceOptions atof program { host.filled with rpcCalls := "0" }.args =
      (clientOptions atof program' host.filled.args).bind served
    rw [clientOptions_args]
    unfold serviceOptions
    rw [service]
    cases checked : checkOptions (host.filled.options atof) with
    | error text => rfl
    | ok out =>
        obtain ⟨rfl, -⟩ := accepted_of_checkOptions checked
        have own : Options.named { host.filled.options atof with rpcCalls := 0 } =
            { host.filled.options atof with rpcCalls := 0 } := if_neg stack_filled
        simp only [Except.map, bind, Except.bind, own]
        rfl
  · rfl

theorem healthy_eq_true {ready : Options → Bool} {outcome : Option (Except String Options)} :
    healthy ready outcome = true ↔ ∃ opt, outcome = some (.ok opt) ∧ ready opt = true := by
  match outcome with
  | some (.ok opt) => simp [healthy]
  | some (.error text) => simp [healthy]
  | none => simp [healthy]

theorem served_eq_ok {opt out : Options} (accepts : served opt = .ok out) :
    kMinFrameBytes ≤ opt.size.toNat ∧ out = { opt with rpcCalls := 0 } := by
  unfold served at accepts
  split at accepts
  · cases accepts
  · rename_i room
    exact ⟨Nat.le_of_not_lt room, (Except.ok.inj accepts).symm⟩

/-- **The two processes agree.** In every environment: the service is started unless its
stack or its transport is refused; the client is started if and only if the service has
accepted its options and become healthy; and then it accepts its own, which are those of the
service but for the calls. -/
theorem options_agree (atof : String → Double) (program program' : String) (host : RunEnv)
    (ready : Options → Bool) :
    ((serviceStarts atof program host).isSome ↔ host.filled.Accepted) ∧
    ((clientStarts atof program program' host ready).isSome ↔
      ∃ opt, serviceStarts atof program host = some (.ok opt) ∧ ready opt = true) ∧
    ∀ result, clientStarts atof program program' host ready = some result →
      ∃ opt, result = .ok opt ∧ kMinFrameBytes ≤ opt.size.toNat ∧
        serviceStarts atof program host = some (.ok { opt with rpcCalls := 0 }) := by
  have agree : serviceStarts atof program host = (processArgs host .client).map fun args =>
      (clientOptions atof program' args).bind served := serviceStarts_eq
  have started : (serviceStarts atof program host).isSome ↔ host.filled.Accepted := by
    unfold serviceStarts
    rw [Option.isSome_map]
    exact isSome_processArgs
  refine ⟨started, ?_, ?_⟩
  · rw [← healthy_eq_true]
    unfold clientStarts
    split
    · rename_i health
      obtain ⟨opt, accepted, -⟩ := healthy_eq_true.mp health
      simp only [Option.isSome_map, health, iff_true]
      rw [isSome_processArgs, ← started, accepted]
      rfl
    · rename_i health
      simp [health]
  · intro result client
    unfold clientStarts at client
    split at client
    · rename_i health
      obtain ⟨out, accepted, -⟩ := healthy_eq_true.mp health
      obtain ⟨args, given, rfl⟩ := Option.map_eq_some_iff.mp client
      rw [agree, given, Option.map_some, Option.some.injEq] at accepted
      obtain ⟨opt, parsed, serves⟩ := bind_eq_ok.mp accepted
      obtain ⟨room, -⟩ := served_eq_ok serves
      refine ⟨opt, parsed, room, ?_⟩
      rw [agree, given, Option.map_some, accepted]
      rw [(served_eq_ok serves).2]
    · cases client

end Options

/-! ## The line of the client -/

section Log

variable {compose : Compose} {client earlier later : List (List Char)} {name text : List Char}

/-- A line of which `sed` leaves no result. -/
def Quiet (line : List Char) : Prop := ∀ text ∈ afterBar line, isBenchLine text = false

/-- Docker writes the lines of the client in their order, each after the name of its
container: the first command among other lines, the second alone, where it succeeds. -/
structure Compose.Shows (compose : Compose) (client : List (List Char)) : Prop where
  up : ∃ (name : List Char) (lines : List (List Char ⊕ List Char)),
    compose.up = lines.map (Sum.elim (tagged name) id) ∧
      lines.filterMap Sum.getLeft? = client ∧ ∀ other ∈ lines.filterMap Sum.getRight?, Quiet other
  logs : compose.logsSucceeded = true → ∃ name, compose.logs = client.map (tagged name)

/-- The last result that a client has written, with nothing after it that could be taken for
one. -/
def Prints (client : List (List Char)) (text : List Char) : Prop :=
  ∃ earlier later, client = earlier ++ text :: later ∧
    ∀ line ∈ later, '|' ∉ line ∧ isBenchLine line = false

/-- Of the lines of a client the result is found last. -/
theorem exists_results (own : isBenchLine text = true) (noBar : '|' ∉ text)
    (prints : Prints client text) : ∃ before,
      ((client.map (tagged name)).filterMap afterBar).filter isBenchLine = before ++ [text] := by
  obtain ⟨earlier, later, rfl, quiet⟩ := prints
  have rest : (later.map (tagged name)).filterMap afterBar = later := by
    rw [List.filterMap_map]
    refine (List.filterMap_congr fun line member => ?_).trans (List.filterMap_some (l := later))
    exact afterBar_tagged (quiet line member).1 name
  have none' : later.filter isBenchLine = [] :=
    List.filter_eq_nil_iff.mpr fun line member => by simp [(quiet line member).2]
  refine ⟨((earlier.map (tagged name)).filterMap afterBar).filter isBenchLine, ?_⟩
  rw [List.map_append, List.map_cons, List.filterMap_append,
    List.filterMap_cons_some (afterBar_tagged noBar name), List.filter_append,
    List.filter_cons_of_pos own, rest, none']

/-- Quiet lines between those of the client change nothing. -/
theorem results_eq {lines : List (List Char ⊕ List Char)}
    (quiet : ∀ other ∈ lines.filterMap Sum.getRight?, Quiet other) :
    ((lines.map (Sum.elim (tagged name) id)).filterMap afterBar).filter isBenchLine =
      (((lines.filterMap Sum.getLeft?).map (tagged name)).filterMap afterBar).filter
        isBenchLine := by
  induction lines with
  | nil => rfl
  | cons line lines ih =>
      cases line with
      | inl own =>
          have rest := ih quiet
          rw [List.map_cons, Sum.elim_inl, List.filterMap_cons_some (f := Sum.getLeft?) rfl,
            List.map_cons]
          cases found : afterBar (tagged name own) with
          | none =>
              rw [List.filterMap_cons_none found, List.filterMap_cons_none found]
              exact rest
          | some text =>
              rw [List.filterMap_cons_some found, List.filterMap_cons_some found,
                List.filter_cons, List.filter_cons, rest]
      | inr other =>
          have rest := ih fun other' member => quiet other' (List.mem_cons_of_mem _ member)
          rw [List.map_cons, Sum.elim_inr, id, List.filterMap_cons_none (f := Sum.getLeft?) rfl]
          cases found : afterBar other with
          | none =>
              rw [List.filterMap_cons_none found]
              exact rest
          | some text =>
              have silent := quiet other List.mem_cons_self text found
              rw [List.filterMap_cons_some found, List.filter_cons_of_neg (by simp [silent])]
              exact rest

/-- Whichever way the line of the client is found, it is the last. -/
theorem exists_resultLines (own : isBenchLine text = true) (noBar : '|' ∉ text)
    (shows' : compose.Shows client) (prints : Prints client text) :
    ∃ before, compose.resultLines = before ++ [text] := by
  obtain ⟨name, lines, up, fromClient, quiet⟩ := shows'.up
  obtain ⟨before, shown⟩ := @exists_results _ name _ own noBar prints
  rw [← fromClient, ← results_eq quiet, ← up] at shown
  unfold Compose.resultLines
  dsimp only
  split
  · rename_i logged
    obtain ⟨name', logs⟩ := shows'.logs logged.1
    rw [logs]
    exact exists_results own noBar prints
  · rw [if_pos (by rw [shown]; simp), shown, ← List.append_assoc]
    exact ⟨_, rfl⟩

end Log

/-! ## The row of a run -/

/-- The variables that the script gives a run, and those it passes on. -/
def Script.runEnv (s : Script) (maxDatagram rpcCalls stack size : String) : RunEnv where
  stack := stack
  size := size
  count := orDefault s.count (vsomeipSnapshotCountForSize size)
  rateHz := vsomeipRateForSize size
  warmup := s.warmupText
  maxDatagram := maxDatagram
  rpcCalls := rpcCalls
  transport := s.transport.text

section Row

variable {atof : String → Double} {program : String} {s : Script} {stack : String}
  {size : UInt64} {maxDatagram rpcCalls : String} {args : List String} {opt : Options}
  {compose : Compose} {client : List (List Char)} {measured : Measurement} {n : Nat}

theorem sizeText_ne (size : UInt64) : sizeText size ≠ "" := by
  intro empty
  have digits := congrArg String.toList empty
  rw [sizeText, Nat.toList_repr] at digits
  exact Nat.toDigits_ne_nil digits

theorem vsomeipRateForSize_ne (size : String) : vsomeipRateForSize size ≠ "" := by
  unfold vsomeipRateForSize
  split <;> decide

theorem vsomeipSnapshotCountForSize_ne (size : String) : vsomeipSnapshotCountForSize size ≠ "" := by
  unfold vsomeipSnapshotCountForSize
  split <;> decide

/-- The options of the client are those of its variables. -/
theorem options_of_parsed {host : RunEnv} (started : processArgs host .client = some args)
    (parsed : clientOptions atof program args = .ok opt) : opt = host.filled.options atof := by
  rw [processArgs_eq] at started
  split at started
  · cases started
    change clientOptions atof program host.filled.args = .ok opt at parsed
    rw [clientOptions_args] at parsed
    exact (accepted_of_checkOptions parsed).1
  · cases started

theorem filled_runEnv (named : stack ≠ "") :
    (s.runEnv maxDatagram rpcCalls stack (sizeText size)).filled =
      { s.runEnv (orDefault maxDatagram "1400") (orDefault rpcCalls "0") stack
        (sizeText size) with : RunEnv } := by
  have transport : s.transport.text ≠ "" := by cases s.transport <;> decide
  unfold RunEnv.filled Script.runEnv Script.warmupText
  dsimp only
  rw [orDefault_of_ne named, orDefault_of_ne (sizeText_ne size),
    orDefault_orDefault (vsomeipSnapshotCountForSize_ne _),
    orDefault_of_ne (vsomeipRateForSize_ne _), orDefault_orDefault (by decide),
    orDefault_of_ne transport]

/-- What the client of a run prints is the line of its row. -/
theorem printCsv_runEnv (named : stack ≠ "") (latencyUs : List Double) (gapCount : UInt64) :
    printCsv ((s.runEnv maxDatagram rpcCalls stack (sizeText size)).filled.options atof)
      latencyUs gapCount = clientLine atof stack size ⟨latencyUs, gapCount⟩ := by
  rw [filled_runEnv named]
  rfl

/-- The lines of a log in which all lines end. -/
theorem linesOf_unlines {lines : List (List Char)} (whole : ∀ line ∈ lines, '\n' ∉ line) :
    linesOf (String.ofList (unlines lines)).toList = lines := by
  unfold linesOf
  dsimp only
  rw [String.toList_ofList, splitOn_unlines whole, if_pos List.getLast?_concat,
    List.dropLast_concat]

theorem runSh_succeeded : compose.runSh.succeeded = (compose.built && compose.upSucceeded) := by
  unfold Compose.runSh
  cases compose.built <;> cases compose.upSucceeded <;> rfl

/-- What `sed` leaves of lines has no line break. -/
theorem notMem_of_afterBar {lines : List (List Char)} {p : List Char → Bool} {line : List Char}
    (whole : ∀ line ∈ lines, '\n' ∉ line) (member : line ∈ (lines.filterMap afterBar).filter p) :
    '\n' ∉ line := by
  obtain ⟨found, -⟩ := List.mem_filter.mp member
  obtain ⟨source, inLines, left⟩ := List.mem_filterMap.mp found
  exact fun inLine => whole source inLines ((suffix_of_afterBar left).mem inLine)

/-- What the script writes of the logs has lines as whole as theirs. -/
theorem notMem_resultLines {line : List Char}
    (member : line ∈ compose.rpcLines ++ compose.resultLines) : '\n' ∉ line := by
  have up : ∀ line ∈ compose.up, '\n' ∉ line := fun line member =>
    compose.whole line (List.mem_append_left _ (List.mem_append_right _ member))
  have logs : ∀ line ∈ compose.logs, '\n' ∉ line := fun line member =>
    compose.whole line (List.mem_append_right _ member)
  rcases List.mem_append.mp member with call | result
  · unfold Compose.rpcLines at call
    split at call
    · exact notMem_of_afterBar up call
    · cases call
  · unfold Compose.resultLines at result
    dsimp only at result
    split at result
    · exact notMem_of_afterBar logs result
    · split at result
      · rcases List.mem_append.mp result with logged | shown
        · exact notMem_of_afterBar logs logged
        · exact notMem_of_afterBar up shown
      · rcases List.mem_append.mp result with logged | plain
        · exact notMem_of_afterBar logs logged
        · exact up line (List.mem_filter.mp plain).1

/-- The log of a run that has succeeded has the line of the client last. -/
theorem leaves_runSh (one : stack ∈ ["covesa", "sgmenon"])
    (ran : s.run n = compose.runSh)
    (succeeded : compose.runSh.succeeded = true) (shows' : compose.Shows client)
    (prints : Prints client (clientLine atof stack size measured).text.toList) :
    (s.run n).Leaves atof stack size (some measured) := by
  have own : isBenchLine (clientLine atof stack size measured).text.toList = true :=
    isBenchLine_text one
  have noBar : '|' ∉ (clientLine atof stack size measured).text.toList := by
    refine notMem_text (by decide) (by decide) ?_ _ _
    show '|' ∉ stack.toList
    simp only [List.mem_cons, List.not_mem_nil, or_false] at one
    rcases one with rfl | rfl <;> decide
  obtain ⟨before, results⟩ := exists_resultLines own noBar shows' prints
  rw [runSh_succeeded, Bool.and_eq_true] at succeeded
  have log : linesOf (s.run n).log.toList =
      compose.before ++ compose.up ++ "== result ==".toList ::
        (compose.rpcLines ++ compose.resultLines) := by
    rw [ran]
    unfold Compose.runSh
    rw [if_pos succeeded.1, if_pos succeeded.2]
    refine linesOf_unlines fun line member => ?_
    rcases List.mem_append.mp member with earlier | result
    · exact compose.whole line (List.mem_append_left _ earlier)
    · rcases List.mem_cons.mp result with rfl | written
      · decide
      · exact notMem_resultLines written
  refine ⟨?_, compose.before ++ compose.up ++ "== result ==".toList ::
    (compose.rpcLines ++ before), [], ?_, by simp⟩
  · rw [ran, runSh_succeeded, Bool.and_eq_true]
    exact succeeded
  · rw [log, results]
    simp

/-- **The row of a run is what its client has printed.** In every order of the lines of
both containers, and whichever of the three ways the line is found: where no other line of
the logs could be taken for a result, and neither could any that the client writes later,
the script appends the line that the client has printed with its own options, which are
those of the row; a run that fails is appended without numbers. -/
theorem cell_printed (atof : String → Double) (program : String) (s : Script) (n : Nat)
    (maxDatagram rpcCalls csv stack : String) (one : stack ∈ ["covesa", "sgmenon"])
    (size : UInt64) (compose : Compose) (ran : s.run n = compose.runSh)
    (client : List (List Char)) (shows' : compose.Shows client) :
    (compose.runSh.succeeded = false → ∃ row,
      s.cell s.ownLabel csv n stack (sizeText size) = HistoryCall.run csv (.appendLine row) ∧
        row.label = s.ownLabel ∧
        row.bench = naLine stack (sizeText size) (vsomeipRateForSize (sizeText size))) ∧
    ∀ args opt latencyUs gapCount,
      processArgs (s.runEnv maxDatagram rpcCalls stack (sizeText size)) .client = some args →
      clientOptions atof program args = .ok opt → compose.runSh.succeeded = true →
      Prints client (printCsv opt latencyUs gapCount).text.toList → ∃ row,
        s.cell s.ownLabel csv n stack (sizeText size) = HistoryCall.run csv (.appendLine row) ∧
          row.label = s.ownLabel ∧ row.bench = printCsv opt latencyUs gapCount ∧
          opt.size = size ∧ opt.count = atoi row.count ∧ opt.warmup = atoi row.warmup ∧
          opt.transport = s.transport.text := by
  have named : stack ≠ "" := by
    rintro rfl
    simp at one
  refine ⟨?_, ?_⟩
  · intro failed
    have leaves : (s.run n).Leaves atof stack size none := .inl (ran ▸ failed)
    exact ⟨_, cell_eq one leaves, rfl, rfl⟩
  · intro args opt latencyUs gapCount started parsed succeeded prints
    have given := options_of_parsed started parsed
    have line : printCsv opt latencyUs gapCount =
        clientLine atof stack size ⟨latencyUs, gapCount⟩ := by
      rw [given]
      exact printCsv_runEnv named latencyUs gapCount
    rw [line] at prints
    have leaves := leaves_runSh one ran succeeded shows' prints
    refine ⟨_, cell_eq one leaves, rfl, line.symm, ?_⟩
    rw [given, filled_runEnv named, count_row]
    unfold RunEnv.options Script.runEnv
    dsimp only
    exact ⟨strtoull_repr size, rfl, rfl, rfl⟩

end Row

/-- A run whose container has no logs any more: the line of its client is between those of
the service in what `docker compose up` has written. -/
def unlogged : Compose where
  before := ["== docker compose (STACK=covesa udp) ==".toList]
  built := true
  up := [tagged "mw_vsomeip_pub".toList "service bench finished".toList,
    tagged "mw_vsomeip_sub".toList
      (clientLine (fun _ => 100) "covesa" 64 ⟨[12, 13], 0⟩).text.toList,
    "mw_vsomeip_sub exited with code 0".toList]
  upSucceeded := true
  logs := []
  logsSucceeded := false
  rpcAsked := false
  whole := by decide +kernel
  text := by decide +kernel

theorem shows_unlogged :
    unlogged.Shows [(clientLine (fun _ => 100) "covesa" 64 ⟨[12, 13], 0⟩).text.toList] where
  up := ⟨"mw_vsomeip_sub".toList,
    [.inr (tagged "mw_vsomeip_pub".toList "service bench finished".toList),
      .inl (clientLine (fun _ => 100) "covesa" 64 ⟨[12, 13], 0⟩).text.toList,
      .inr "mw_vsomeip_sub exited with code 0".toList], rfl, rfl, by
        unfold Quiet
        decide +kernel⟩
  logs succeeded := nomatch succeeded

/-- The script with that run. -/
def unloggedScript : Script := { ladderScript with run := fun _ => unlogged.runSh }

theorem cell_printed_unlogged : ∃ row,
    unloggedScript.cell unloggedScript.ownLabel "" 0 "covesa" (sizeText 64) =
      HistoryCall.run "" (.appendLine row) ∧
    row.bench = printCsv ((unloggedScript.runEnv "" "" "covesa" (sizeText 64)).filled.options
      fun _ => 100) [12, 13] 0 := by
  have started : processArgs (unloggedScript.runEnv "" "" "covesa" (sizeText 64)) .client =
      some (unloggedScript.runEnv "" "" "covesa" (sizeText 64)).filled.args := by
    rw [processArgs_eq, if_pos (by decide +kernel)]
    rfl
  have parsed : clientOptions (fun _ => 100) "event_client"
      (unloggedScript.runEnv "" "" "covesa" (sizeText 64)).filled.args =
        .ok ((unloggedScript.runEnv "" "" "covesa" (sizeText 64)).filled.options fun _ => 100) := by
    rw [clientOptions_args]
    unfold checkOptions
    rw [if_neg (by decide +kernel), if_neg (by decide +kernel)]
  have prints : Prints [(clientLine (fun _ => 100) "covesa" 64 ⟨[12, 13], 0⟩).text.toList]
      (printCsv ((unloggedScript.runEnv "" "" "covesa" (sizeText 64)).filled.options
        fun _ => 100) [12, 13] 0).text.toList := by
    rw [printCsv_runEnv (by decide)]
    exact ⟨[], [], rfl, by simp⟩
  obtain ⟨row, appended, -, bench, -⟩ := (cell_printed (fun _ => 100) "event_client"
    unloggedScript 0 "" "" "" "covesa" (by decide) 64 unlogged rfl _ shows_unlogged).2
      _ _ [12, 13] 0 started parsed rfl prints
  exact ⟨row, appended, bench⟩

end MiddlewareBench.Snapshot
