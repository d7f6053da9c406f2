import MiddlewareBench.Lib.CText
import MiddlewareBench.Lib.Fallible
import MiddlewareBench.Vsomeip.Fragment

/-!
# The command line

`ParseOptions` of `bench_common.h`, which both binaries call, and what the two
`main` functions do with its result. The arguments are those after the name of
the program. Refused options come back as the text on the error stream.

`atof` is a parameter, and nothing depends on its value but whether the rate is
accepted. A value is a number here; the source also accepts a rate that is infinite
or no number, which compares with nothing.
-/

namespace MiddlewareBench.Vsomeip

open CText Fallible

/-- The rest of an argument that starts with `key`. -/
def take (arg key : String) : Option String :=
  (arg.toList.dropPrefix? key.toList).map String.ofList

def usage (program : String) : String :=
  s!"Usage: {program} [--size=N] [--count=N] [--warmup=N] " ++
    "[--rate-hz=F] [--max-datagram=N] [--stack=NAME] " ++
    "[--transport=udp|tcp] [--rpc-calls=N]\n"

/-- One turn of the loop. -/
def parseArg (atof : String → Double) (program : String) (out : Options) (arg : String) :
    Except String Options :=
  if let some v := take arg "--size=" then .ok { out with size := strtoull v }
  else if let some v := take arg "--count=" then .ok { out with count := atoi v }
  else if let some v := take arg "--warmup=" then .ok { out with warmup := atoi v }
  else if let some v := take arg "--rate-hz=" then .ok { out with rateHz := atof v }
  else if let some v := take arg "--max-datagram=" then .ok { out with maxDatagram := strtoull v }
  else if let some v := take arg "--stack=" then .ok { out with stack := v }
  else if let some v := take arg "--transport=" then .ok { out with transport := v }
  else if let some v := take arg "--rpc-calls=" then .ok { out with rpcCalls := atoi v }
  else if arg = "--help" ∨ arg = "-h" then .error (usage program)
  else .error s!"unknown arg: {arg}\n"

/-- The checks after the loop. -/
def checkOptions (out : Options) : Except String Options :=
  if out.size.toNat < kBenchHeaderBytes ∨ out.count ≤ 0 ∨ out.rateHz ≤ 0 then
    .error s!"invalid size/count/rate-hz (size must be >= {kBenchHeaderBytes})\n"
  else if out.transport ≠ "udp" ∧ out.transport ≠ "tcp" then
    .error "transport must be udp or tcp\n"
  else .ok out

def parseOptions (atof : String → Double) (program : String) (args : List String) :
    Except String Options := do
  let out ← args.foldlM (parseArg atof program) {}
  checkOptions out

/-- A binary without `--stack` names its stack after the library. -/
def Options.named (opt : Options) : Options :=
  if opt.stack = "" then { opt with stack := "vsomeip" } else opt

/-- The options `event_service` runs with. -/
def serviceOptions (atof : String → Double) (program : String) (args : List String) :
    Except String Options := do
  let opt ← parseOptions atof program args
  if opt.size.toNat < kMinFrameBytes then .error s!"--size must be >= {kMinFrameBytes}\n"
  else .ok opt.named

/-- The options `event_client` runs with. -/
def clientOptions (atof : String → Double) (program : String) (args : List String) :
    Except String Options := do
  let opt ← parseOptions atof program args
  return opt.named

/-! ## What is accepted -/

/-- What the checks guarantee. -/
structure Options.Accepted (opt : Options) : Prop where
  size : kBenchHeaderBytes ≤ opt.size.toNat
  count : 0 < opt.count
  rateHz : 0 < opt.rateHz
  transport : opt.transport = "udp" ∨ opt.transport = "tcp"

theorem accepted_of_checkOptions {out opt : Options} (checked : checkOptions out = .ok opt) :
    opt = out ∧ opt.Accepted := by
  unfold checkOptions at checked
  split at checked
  · cases checked
  · rename_i numbers
    split at checked
    · cases checked
    · rename_i transport
      cases checked
      simp only [not_or, Nat.not_lt] at numbers
      rcases numbers with ⟨size, count, rate⟩
      refine ⟨rfl, size, Int32.not_le.mp count, Rat.not_le.mp rate, ?_⟩
      by_cases udp : out.transport = "udp"
      · exact .inl udp
      · exact .inr (not_not.mp fun tcp => transport ⟨udp, tcp⟩)

theorem parseOptions_accepted {atof : String → Double} {program : String} {args : List String}
    {opt : Options} (parsed : parseOptions atof program args = .ok opt) : opt.Accepted := by
  unfold parseOptions at parsed
  obtain ⟨out, -, checked⟩ := bind_eq_ok.mp parsed
  exact (accepted_of_checkOptions checked).2

/-- The name of the stack is nothing the checks look at. -/
theorem Options.Accepted.named {opt : Options} (accepted : opt.Accepted) : opt.named.Accepted := by
  unfold Options.named
  split
  · exact ⟨accepted.size, accepted.count, accepted.rateHz, accepted.transport⟩
  · exact accepted

/-- A publisher's frame has room for a chunk header and a stamp. -/
theorem serviceOptions_accepted {atof : String → Double} {program : String} {args : List String}
    {opt : Options} (served : serviceOptions atof program args = .ok opt) :
    opt.Accepted ∧ kMinFrameBytes ≤ opt.size.toNat := by
  unfold serviceOptions at served
  obtain ⟨parsed, ran, kept⟩ := bind_eq_ok.mp served
  split at kept
  · cases kept
  · rename_i frame
    cases kept
    refine ⟨(parseOptions_accepted ran).named, ?_⟩
    have same : parsed.named.size = parsed.size := by
      unfold Options.named
      split <;> rfl
    rw [same]
    exact Nat.not_lt.mp frame

end MiddlewareBench.Vsomeip
