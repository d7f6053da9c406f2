import MiddlewareBench.Lib.ShellText
import MiddlewareBench.Net.HostPort
import MiddlewareBench.Net.PingPong
import MiddlewareBench.Vsomeip.ParseOptions

/-!
# Two containers

How the two processes of a network run come by their options: `run.sh`, the
environments of `docker-compose.yml`, `entrypoint.sh`, `ParseOptions` of
`net_common.h`, and what each `main` makes of the result. Both are refused alike or
run with the same numbers, each reads what the other writes, and without a peer of
one's own the publisher dials what the subscriber listens at (`containers_agree`).
-/

namespace MiddlewareBench.Net

open CText Fallible ShellText

/-! ## Options -/

/-- The options with the fields that are only used to set up a process. -/
structure FullOptions extends Options where
  role : String := ""
  peer : String := ""
  channel : String := "bench/net"
  discPort : Int32 := 7420
  stack : String := ""

def usage (program : String) : String :=
  s!"Usage: {program} --role=pub|sub [--peer=host:port] [--size=N] [--count=N] " ++
    "[--channel=NAME] [--disc-port=N] [--warmup=N]\n"

/-- One turn of the loop. -/
def parseArg (program : String) (out : FullOptions) (arg : String) :
    Except String FullOptions :=
  if let some v := Vsomeip.take arg "--role=" then .ok { out with role := v }
  else if let some v := Vsomeip.take arg "--peer=" then .ok { out with peer := v }
  else if let some v := Vsomeip.take arg "--channel=" then .ok { out with channel := v }
  else if let some v := Vsomeip.take arg "--size=" then .ok { out with size := strtoull v }
  else if let some v := Vsomeip.take arg "--count=" then .ok { out with count := atoi v }
  else if let some v := Vsomeip.take arg "--disc-port=" then .ok { out with discPort := atoi v }
  else if let some v := Vsomeip.take arg "--warmup=" then .ok { out with warmup := atoi v }
  else if arg = "--help" ∨ arg = "-h" then .error (usage program)
  else .error s!"unknown arg: {arg}\n"

/-- The checks after the loop. -/
def checkOptions (out : FullOptions) : Except String FullOptions :=
  if out.role ≠ "pub" ∧ out.role ≠ "sub" then .error "--role=pub|sub is required\n"
  else if out.role = "pub" ∧ out.peer = "" then .error "pub requires --peer=host:port\n"
  else if out.size = 0 ∨ out.count ≤ 0 then .error "invalid --size/--count\n"
  else .ok out

def parseOptions (program : String) (args : List String) (out : FullOptions) :
    Except String FullOptions := do
  let out ← args.foldlM (parseArg program) out
  checkOptions out

def reqKey (opt : FullOptions) : String := opt.channel ++ "/req"

def repKey (opt : FullOptions) : String := opt.channel ++ "/rep"

/-! ## Processes -/

inductive Stack
  | subspace
  | zenoh
  | cyclone
  deriving DecidableEq

def Stack.text : Stack → String
  | subspace => "subspace"
  | zenoh => "zenoh"
  | cyclone => "cyclone"

/-- The options before the arguments are read. -/
def Stack.initial : Stack → FullOptions
  | subspace => { stack := "subspace" }
  | zenoh => { stack := "zenoh", discPort := 7447 }
  | cyclone => { stack := "cyclone" }

/-- What a process opens: the host that it dials, with the port where one is used, the
port that it listens at, and the channels that it writes and reads. -/
structure Link where
  dials : Option (String × Option Int32)
  listens : Option Int32
  writes : String
  reads : String
  deriving DecidableEq

/-- The host in `--peer` that `Setup` of `cyclone_net.cc` names in its configuration. -/
def cyclonePeer (opt : FullOptions) (isPub : Bool) : String :=
  match parseHostPort opt.peer ⟨"", 0⟩ with
  | (true, parsed) => parsed.host
  | (false, _) =>
    if isPub then
      match rfind opt.peer ':' with
      | none => opt.peer
      | some colon => String.ofList (opt.peer.toList.take colon)
    else opt.peer

/-- `StartServer` and the channels of `subspace_net.cc`, `RunPub` and `RunSub` of
`zenoh_net.cc`, and `Setup` of `cyclone_net.cc`. -/
def link (stack : Stack) (opt : FullOptions) : Except String Link :=
  let isPub := opt.role = "pub"
  let writes := if isPub then reqKey opt else repKey opt
  let reads := if isPub then repKey opt else reqKey opt
  match stack with
  | .cyclone =>
    let host := cyclonePeer opt isPub
    .ok ⟨if host = "" then none else some (host, none), none, writes, reads⟩
  | stack =>
    if isPub then
      match parseHostPort opt.peer ⟨"", 0⟩ with
      | (false, _) => .error s!"bad --peer={opt.peer}\n"
      | (true, peer) =>
        let listens := if stack = .subspace then some opt.discPort else none
        .ok ⟨some (peer.host, some peer.port), listens, writes, reads⟩
    else .ok ⟨none, some opt.discPort, writes, reads⟩

/-! ## Containers -/

/-- The variables that `run.sh` and `docker-compose.yml` read, empty where unset. -/
structure HostEnv where
  stack : String
  size : String
  count : String
  channel : String
  warmup : String
  peer : String
  subPeer : String

/-- The variables of a container. -/
structure ContainerEnv where
  role : String
  stack : Stack
  size : String
  count : String
  channel : String
  warmup : String
  peer : String
  discPort : String

/-- The stacks that `run.sh` accepts. -/
def stackOf : String → Option Stack
  | "subspace" => some .subspace
  | "zenoh" => some .zenoh
  | "cyclone" => some .cyclone
  | _ => none

/-- The peer that `run.sh` exports when none is given. -/
def Stack.defaultPeer : Stack → String
  | subspace => "sub:7420"
  | zenoh => "sub:7447"
  | cyclone => "sub:7400"

/-- A service of `docker-compose.yml`, which does not pass `DISC_PORT` on. -/
def service (host : HostEnv) (stack : Stack) (role peer : String) : ContainerEnv where
  role := role
  stack := stack
  size := orDefault host.size "1024"
  count := orDefault host.count "1000"
  channel := orDefault host.channel "bench/net"
  warmup := orDefault host.warmup "50"
  peer := peer
  discPort := ""

/-- The publisher and the subscriber that `run.sh` starts. -/
def containers (host : HostEnv) : Option (ContainerEnv × ContainerEnv) :=
  (stackOf (orDefault host.stack "subspace")).map fun stack =>
    (service host stack "pub" (orDefault host.peer stack.defaultPeer),
      service host stack "sub" host.subPeer)

/-- The arguments of `entrypoint.sh`. -/
def entrypointArgs (env : ContainerEnv) : List String :=
  ["--role=" ++ env.role, "--size=" ++ orDefault env.size "1024",
    "--count=" ++ orDefault env.count "1000", "--channel=" ++ orDefault env.channel "bench/net",
    "--warmup=" ++ orDefault env.warmup "50"] ++
  match env.stack with
  | .subspace =>
    if env.role = "sub" then ["--disc-port=" ++ orDefault env.discPort "7420"]
    else ["--peer=" ++ orDefault env.peer "sub:7420",
      "--disc-port=" ++ orDefault env.discPort "7421"]
  | .zenoh =>
    if env.role = "sub" then ["--disc-port=" ++ orDefault env.discPort "7447"]
    else ["--peer=" ++ orDefault env.peer "sub:7447"]
  | .cyclone =>
    if env.role = "pub" then ["--peer=" ++ orDefault env.peer "sub:7400"]
    else ["--peer=" ++ orDefault env.peer "pub:7400"]

/-- The options that the process of a container runs with. -/
def containerOptions (program : String) (env : ContainerEnv) : Except String FullOptions :=
  parseOptions program (entrypointArgs env) env.stack.initial

/-! ## What the containers run with -/

section Containers

variable {host : HostEnv} {stack : Stack} {program role peer value : String}

/-- The options of a container before they are checked. -/
def given (host : HostEnv) (stack : Stack) (role peer : String) : FullOptions where
  size := strtoull (orDefault host.size "1024")
  count := atoi (orDefault host.count "1000")
  warmup := atoi (orDefault host.warmup "50")
  role := role
  peer := peer
  channel := orDefault host.channel "bench/net"
  discPort := match stack with
    | .subspace => if role = "sub" then 7420 else 7421
    | .zenoh => 7447
    | .cyclone => 7420
  stack := stack.text

theorem containerOptions_pub (host : HostEnv) (stack : Stack) (given' : peer ≠ "") :
    containerOptions program (service host stack "pub" peer) =
      checkOptions (given host stack "pub" peer) := by
  have own : ∀ default, orDefault peer default = peer := fun default => if_neg given'
  have port : orDefault "" "7421" = "7421" := rfl
  have number : atoi "7421" = 7421 := by decide +kernel
  unfold containerOptions parseOptions entrypointArgs service
  dsimp only
  rw [orDefault_orDefault (by decide), orDefault_orDefault (by decide),
    orDefault_orDefault (by decide), orDefault_orDefault (by decide)]
  cases stack <;>
    simp [parseArg, Vsomeip.take, List.dropPrefix?, String.toList_append, own, port,
      number, given, Stack.initial, Stack.text, bind, pure, Except.bind, Except.pure]

/-- The peer that the subscriber is given, which only Cyclone uses. -/
def subscriberPeer (stack : Stack) (peer : String) : String :=
  match stack with
  | .cyclone => orDefault peer "pub:7400"
  | _ => ""

theorem containerOptions_sub (host : HostEnv) (stack : Stack) (peer : String) :
    containerOptions program (service host stack "sub" peer) =
      checkOptions (given host stack "sub" (subscriberPeer stack peer)) := by
  have subspacePort : orDefault "" "7420" = "7420" := rfl
  have zenohPort : orDefault "" "7447" = "7447" := rfl
  have numbers : atoi "7420" = 7420 ∧ atoi "7447" = 7447 := by decide +kernel
  unfold containerOptions parseOptions entrypointArgs service
  dsimp only
  rw [orDefault_orDefault (by decide), orDefault_orDefault (by decide),
    orDefault_orDefault (by decide), orDefault_orDefault (by decide)]
  cases stack <;>
    simp [parseArg, Vsomeip.take, List.dropPrefix?, String.toList_append,
      subspacePort, zenohPort, numbers, given, subscriberPeer, Stack.initial, Stack.text, bind,
      pure, Except.bind, Except.pure]

/-- A publisher with a peer and a subscriber are refused for their numbers only. -/
theorem checkOptions_given (one : role = "pub" ∧ peer ≠ "" ∨ role = "sub") :
    checkOptions (given host stack role peer) =
      if strtoull (orDefault host.size "1024") = 0 ∨ atoi (orDefault host.count "1000") ≤ 0 then
        .error "invalid --size/--count\n"
      else .ok (given host stack role peer) := by
  unfold checkOptions
  rcases one with ⟨rfl, some'⟩ | rfl
  · rw [if_neg (fun refused => refused.1 rfl), if_neg (fun refused => some' refused.2)]
    rfl
  · rw [if_neg (fun refused => refused.2 rfl), if_neg]
    · rfl
    · rintro ⟨pub, -⟩
      exact absurd pub (show "sub" ≠ "pub" by decide)

theorem reqKey_ne_repKey (opt : FullOptions) : reqKey opt ≠ repKey opt := by
  unfold reqKey repKey
  intro same
  have tails := congrArg String.toList same
  rw [String.toList_append, String.toList_append, List.append_cancel_left_eq] at tails
  exact absurd tails (by decide)

/-- What is opened of each channel does not depend on the stack. -/
theorem link_channels {opt : FullOptions} {opened : Link} (made : link stack opt = .ok opened) :
    opened.writes = (if opt.role = "pub" then reqKey opt else repKey opt) ∧
      opened.reads = (if opt.role = "pub" then repKey opt else reqKey opt) := by
  unfold link at made
  dsimp only at made
  split at made
  · cases made
    exact ⟨rfl, rfl⟩
  · split at made
    · rename_i pub
      split at made
      · cases made
      · cases made
        exact ⟨(if_pos pub).symm, (if_pos pub).symm⟩
    · rename_i sub
      cases made
      exact ⟨(if_neg sub).symm, (if_neg sub).symm⟩

/-- Without a peer of one's own the publisher dials where the subscriber listens. -/
structure Meet (opened opened' : Link) : Prop where
  dials : ∃ port, opened.dials = some ("sub", port) ∧
    ∀ number, port = some number → opened'.listens = some number
  names : ∀ name, opened'.dials = some name → name = ("pub", none)

theorem exists_meet (stack : Stack) : ∃ opened opened',
    link stack (given host stack "pub" stack.defaultPeer) = .ok opened ∧
      link stack (given host stack "sub" (subscriberPeer stack "")) = .ok opened' ∧
        Meet opened opened' := by
  cases stack with
  | subspace =>
      have peer : parseHostPort "sub:7420" ⟨"", 0⟩ = (true, ⟨"sub", 7420⟩) := by decide +kernel
      have dialled : link .subspace (given host .subspace "pub" "sub:7420") =
          .ok ⟨some ("sub", some 7420), some 7421, orDefault host.channel "bench/net" ++ "/req",
            orDefault host.channel "bench/net" ++ "/rep"⟩ := by
        simp only [link, given, peer]
        rfl
      exact ⟨_, _, dialled, rfl, ⟨_, rfl, fun number same => same⟩, by simp⟩
  | zenoh =>
      have peer : parseHostPort "sub:7447" ⟨"", 0⟩ = (true, ⟨"sub", 7447⟩) := by decide +kernel
      have dialled : link .zenoh (given host .zenoh "pub" "sub:7447") =
          .ok ⟨some ("sub", some 7447), none, orDefault host.channel "bench/net" ++ "/req",
            orDefault host.channel "bench/net" ++ "/rep"⟩ := by
        simp only [link, given, peer]
        rfl
      exact ⟨_, _, dialled, rfl, ⟨_, rfl, fun number same => same⟩, by simp⟩
  | cyclone =>
      have named : parseHostPort "sub:7400" ⟨"", 0⟩ = (true, ⟨"sub", 7400⟩) ∧
          parseHostPort "pub:7400" ⟨"", 0⟩ = (true, ⟨"pub", 7400⟩) := by decide +kernel
      have dialled : cyclonePeer (given host .cyclone "pub" "sub:7400") true = "sub" := by
        simp only [cyclonePeer, given, named.1]
      have dialled' : cyclonePeer (given host .cyclone "sub" "pub:7400") false = "pub" := by
        simp only [cyclonePeer, given, named.2]
      refine ⟨_, _, rfl, rfl, ⟨none, ?_, by simp⟩, ?_⟩
      · show (if cyclonePeer (given host .cyclone "pub" "sub:7400") true = "" then none
          else some (cyclonePeer (given host .cyclone "pub" "sub:7400") true, none)) = _
        rw [dialled]
        rfl
      · show ∀ name, (if cyclonePeer (given host .cyclone "sub" "pub:7400") false = "" then none
          else some (cyclonePeer (given host .cyclone "sub" "pub:7400") false, none)) =
            some name → _
        rw [dialled']
        intro name same
        exact (Option.some.inj same).symm

/-- What the two processes share. -/
def FullOptions.shared (opt : FullOptions) : Options × String := (opt.toOptions, opt.channel)

/-- **The two containers agree.** For every environment with a stack that `run.sh` takes:
both processes are refused, with one text, or both run with the same numbers and
channel; what one writes is what the other reads, and these are two channels; and
without a peer of one's own each can be set up, and they meet. -/
theorem containers_agree (program : String) (host : HostEnv) (pubEnv subEnv : ContainerEnv)
    (started : containers host = some (pubEnv, subEnv)) :
    (containerOptions program pubEnv).map FullOptions.shared =
        (containerOptions program subEnv).map FullOptions.shared ∧
    ∀ pub sub, containerOptions program pubEnv = .ok pub →
      containerOptions program subEnv = .ok sub →
      (∀ opened opened', link pubEnv.stack pub = .ok opened →
        link subEnv.stack sub = .ok opened' → opened.writes = opened'.reads ∧
          opened.reads = opened'.writes ∧ opened.writes ≠ opened.reads) ∧
      (host.peer = "" → host.subPeer = "" → ∃ opened opened',
        link pubEnv.stack pub = .ok opened ∧ link subEnv.stack sub = .ok opened' ∧
          Meet opened opened') := by
  obtain ⟨stack, -, same⟩ := Option.map_eq_some_iff.mp started
  cases same
  have some' : orDefault host.peer stack.defaultPeer ≠ "" :=
    orDefault_ne (by cases stack <;> decide)
  have pubOptions := @containerOptions_pub program (orDefault host.peer stack.defaultPeer) host
    stack some'
  have subOptions := @containerOptions_sub program host stack host.subPeer
  rw [checkOptions_given (.inl ⟨rfl, some'⟩)] at pubOptions
  rw [checkOptions_given (.inr rfl)] at subOptions
  rw [pubOptions, subOptions]
  by_cases refused : strtoull (orDefault host.size "1024") = 0 ∨
      atoi (orDefault host.count "1000") ≤ 0
  · rw [if_pos refused, if_pos refused]
    refine ⟨rfl, ?_⟩
    intro pub sub parsed
    cases parsed
  · rw [if_neg refused, if_neg refused]
    refine ⟨rfl, ?_⟩
    intro pub sub parsed parsed'
    cases parsed
    cases parsed'
    refine ⟨?_, ?_⟩
    · intro opened opened' made made'
      rw [(link_channels made).1, (link_channels made).2, (link_channels made').1,
        (link_channels made').2]
      exact ⟨rfl, rfl, reqKey_ne_repKey _⟩
    · intro noPeer noSubPeer
      rw [noPeer, noSubPeer]
      exact exists_meet stack

/-- An environment in which nothing is set. -/
def bareEnv : HostEnv := ⟨"", "", "", "", "", "", ""⟩

theorem containers_agree_bare : ∃ pub sub,
    containerOptions "subspace_net" (service bareEnv .subspace "pub" "sub:7420") = .ok pub ∧
      containerOptions "subspace_net" (service bareEnv .subspace "sub" "") = .ok sub ∧
      ∃ opened opened', link .subspace pub = .ok opened ∧ link .subspace sub = .ok opened' ∧
        Meet opened opened' := by
  have numbers : ¬ (strtoull (orDefault bareEnv.size "1024") = 0 ∨
      atoi (orDefault bareEnv.count "1000") ≤ 0) := by decide +kernel
  have pubOptions := @containerOptions_pub "subspace_net" "sub:7420" bareEnv .subspace (by decide)
  have subOptions := @containerOptions_sub "subspace_net" bareEnv .subspace ""
  rw [checkOptions_given (.inl ⟨rfl, by decide⟩), if_neg numbers] at pubOptions
  rw [checkOptions_given (.inr rfl), if_neg numbers] at subOptions
  have agree := containers_agree "subspace_net" bareEnv
    (service bareEnv .subspace "pub" "sub:7420") (service bareEnv .subspace "sub" "")
    rfl
  exact ⟨_, _, pubOptions, subOptions, (agree.2 _ _ pubOptions subOptions).2 rfl rfl⟩

end Containers

end MiddlewareBench.Net
