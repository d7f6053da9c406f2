import MiddlewareBench.Lib.CText

/-!
# Peers

`ParseHostPort` of `net_common.h` and the endpoint that `RunPub` of `zenoh_net.cc`
makes of its result. The port is read with `atoi`, so a peer is accepted whenever
its text behind the last colon begins like a positive number. Only characters of
ASCII are looked for, so characters stand for bytes.
-/

namespace MiddlewareBench.Net

open CText DecimalText

/-- The two variables of the caller. -/
structure HostPort where
  host : String
  port : Int32
  deriving DecidableEq, Repr

def parseHostPort (peer : String) (out : HostPort) : Bool × HostPort :=
  match rfind peer ':' with
  | none => (false, out)
  | some colon =>
    if colon = 0 ∨ peer.length ≤ colon + 1 then (false, out)
    else
      let host := String.ofList (peer.toList.take colon)
      let port := atoi (String.ofList (peer.toList.drop (colon + 1)))
      (host ≠ "" ∧ 0 < port, { host, port })

/-- The endpoint that `RunPub` connects to; `none` when it fails with `bad --peer`. -/
def zenohEndpoint (peer : String) : Option String :=
  match parseHostPort peer { host := "", port := 0 } with
  | (false, _) => none
  | (true, hostPort) => some ("tcp/" ++ hostPort.host ++ ":" ++ toString hostPort.port.toInt)

/-! ## Peers as they are meant -/

/-- `peer` is written as this host, a colon and this port. -/
def Names (peer host : String) (port : Nat) : Prop :=
  ∃ digits : String, peer = host ++ ":" ++ digits ∧ host ≠ "" ∧
    (∀ c ∈ digits.toList, c.isDigit) ∧ digitsValue digits.toList = port ∧
    1 ≤ port ∧ port ≤ 65535

/-- The peers that are written as a host and a port are accepted, and no others; what
they name is what comes out. -/
structure ParsesExactly (peer : String) : Prop where
  accepted : ∀ out, (parseHostPort peer out).1 = true ↔ ∃ host port, Names peer host port
  parts : ∀ out host port, Names peer host port →
    (parseHostPort peer out).2.host = host ∧ (parseHostPort peer out).2.port.toInt = port
  endpoint : ∀ host port, Names peer host port →
    ∃ named, zenohEndpoint peer = some ("tcp/" ++ named) ∧ Names named host port

/-- What stands behind the last colon is a port, or does not begin like one. -/
def Unmistakable (peer : String) : Prop :=
  ∀ host text, peer = host ++ ":" ++ text → ':' ∉ text.toList →
    host = "" ∨ (∀ c ∈ text.toList, c.isDigit) ∧ digitsValue text.toList ≤ 65535 ∨
      ¬ BeginsPositive text

/-! ## The last colon -/

variable {peer host text : String} {port : Nat} {out : HostPort}

theorem toList_split (host text : String) :
    (host ++ ":" ++ text).toList = host.toList ++ ':' :: text.toList := by
  simp

theorem exists_split (colon : ':' ∈ peer.toList) :
    ∃ host text : String, peer = host ++ ":" ++ text ∧ ':' ∉ text.toList := by
  obtain ⟨front, back, split, last⟩ := exists_last colon
  refine ⟨String.ofList front, String.ofList back, ?_, by simpa using last⟩
  apply String.toList_injective
  rw [toList_split, split, String.toList_ofList, String.toList_ofList]

theorem split_unique {host' text' : String} (same : host ++ ":" ++ text = host' ++ ":" ++ text')
    (last : ':' ∉ text.toList) (last' : ':' ∉ text'.toList) : host = host' ∧ text = text' := by
  have lists := congrArg String.toList same
  rw [toList_split, toList_split] at lists
  obtain ⟨fronts, backs⟩ := last_unique lists last last'
  exact ⟨String.toList_injective fronts, String.toList_injective backs⟩

theorem parseHostPort_of_notMem (absent : ':' ∉ peer.toList) :
    parseHostPort peer out = (false, out) := by
  simp only [parseHostPort, rfind, lastIdx_of_notMem absent]

theorem parseHostPort_split (last : ':' ∉ text.toList) :
    parseHostPort (host ++ ":" ++ text) out =
      if host = "" ∨ text = "" then (false, out)
      else (0 < atoi text, { host, port := atoi text }) := by
  have colon : rfind (host ++ ":" ++ text) ':' = some host.toList.length := by
    rw [rfind, toList_split, lastIdx_append _ last]
  have front : (host ++ ":" ++ text).toList.take host.toList.length = host.toList := by
    rw [toList_split, List.take_left]
  have behind : (host ++ ":" ++ text).toList.drop (host.toList.length + 1) = text.toList := by
    rw [toList_split, List.drop_length_add_append, List.drop_succ_cons, List.drop_zero]
  have parts : (host.toList.length = 0 ∨
      (host ++ ":" ++ text).length ≤ host.toList.length + 1) ↔ host = "" ∨ text = "" := by
    rw [← String.length_toList, toList_split, List.length_append, List.length_cons,
      ← String.toList_eq_nil_iff, ← List.length_eq_zero_iff, ← String.toList_eq_nil_iff,
      ← List.length_eq_zero_iff]
    omega
  simp only [parseHostPort, colon, front, behind, parts, String.ofList_toList]
  by_cases refused : host = "" ∨ text = ""
  · rw [if_pos refused, if_pos refused]
  · rw [if_neg refused, if_neg refused]
    simp [(not_or.mp refused).1]

theorem accepted_split (last : ':' ∉ text.toList) :
    (parseHostPort (host ++ ":" ++ text) out).1 = true ↔ host ≠ "" ∧ BeginsPositive text := by
  rw [parseHostPort_split last]
  by_cases refused : host = "" ∨ text = ""
  · rw [if_pos refused]
    have nothing : ¬ BeginsPositive "" := by decide
    rcases refused with rfl | rfl
    · simp
    · simp [nothing]
  · rw [if_neg refused]
    simp [atoi_pos_iff, (not_or.mp refused).1]

/-! ## What is meant -/

theorem notMem_of_digits (digits : ∀ c ∈ text.toList, c.isDigit) : ':' ∉ text.toList :=
  fun colon => absurd (digits _ colon) (by decide)

theorem names_split (last : ':' ∉ text.toList) {host' : String} :
    Names (host ++ ":" ++ text) host' port ↔ host' = host ∧ host ≠ "" ∧
      (∀ c ∈ text.toList, c.isDigit) ∧ digitsValue text.toList = port ∧
        1 ≤ port ∧ port ≤ 65535 := by
  refine ⟨?_, ?_⟩
  · intro names
    rcases names with ⟨digits, same, nonempty, all, rest⟩
    obtain ⟨rfl, rfl⟩ := split_unique same last (notMem_of_digits all)
    exact ⟨rfl, nonempty, all, rest⟩
  · intro meant
    rcases meant with ⟨rfl, nonempty, all, rest⟩
    exact ⟨text, rfl, nonempty, all, rest⟩

theorem names_repr (nonempty : host ≠ "") (least : 1 ≤ port) (greatest : port ≤ 65535) :
    Names (host ++ ":" ++ Nat.repr port) host port :=
  ⟨Nat.repr port, rfl, nonempty, fun _ => isDigit_of_mem_repr, digitsValue_repr port, least,
    greatest⟩

theorem Names.toInt_port (names : Names peer host port) : (Int32.ofNat port).toInt = port := by
  rcases names with ⟨-, -, -, -, -, -, greatest⟩
  exact Int32.toInt_ofNat_of_lt (by omega)

theorem beginsPositive_iff_of_digits (digits : ∀ c ∈ text.toList, c.isDigit)
    (small : digitsValue text.toList ≤ 65535) :
    BeginsPositive text ↔ 1 ≤ digitsValue text.toList := by
  unfold BeginsPositive
  rw [magnitude_of_digits digits, (unsigned_of_digits digits).2, if_neg Bool.false_ne_true]
  omega

/-- What is written as a host and a port is parsed as these. -/
theorem parseHostPort_of_names (names : Names peer host port) (out : HostPort) :
    parseHostPort peer out = (true, { host, port := Int32.ofNat port }) := by
  rcases names with ⟨text, rfl, nonempty, digits, rfl, least, greatest⟩
  have value := toInt_atoi_of_digits digits (by omega)
  have port : atoi text = Int32.ofNat (digitsValue text.toList) := by
    apply Int32.toInt_inj.mp
    rw [value, Int32.toInt_ofNat_of_lt (by omega)]
  have positive : 0 < atoi text :=
    (atoi_pos_iff text).mpr ((beginsPositive_iff_of_digits digits greatest).mpr least)
  have written : text ≠ "" := by
    rintro rfl
    exact absurd least (by decide)
  rw [parseHostPort_split (notMem_of_digits digits), if_neg (not_or.mpr ⟨nonempty, written⟩)]
  rw [decide_eq_true positive, port]

example : parseHostPort "fe80::1:7420" ⟨"", 0⟩ = (true, ⟨"fe80::1", 7420⟩) := by decide +kernel

/-! ## The endpoint -/

theorem zenohEndpoint_of_names (names : Names peer host port) :
    zenohEndpoint peer = some ("tcp/" ++ (host ++ ":" ++ Nat.repr port)) := by
  unfold zenohEndpoint
  rw [parseHostPort_of_names names]
  simp only [names.toInt_port, String.append_assoc]
  rfl

/-! ## When the parser is exact -/

/-- What is written as a peer comes out right, so only the refusals are in question. -/
theorem parsesExactly_iff_accepted :
    ParsesExactly peer ↔
      ∀ out, (parseHostPort peer out).1 = true → ∃ host port, Names peer host port := by
  refine ⟨?_, ?_⟩
  · exact fun exact' out => (exact'.accepted out).mp
  · intro sound
    refine ⟨fun out => ⟨sound out, ?_⟩, ?_, ?_⟩
    · intro meant
      rcases meant with ⟨host, port, names⟩
      rw [parseHostPort_of_names names]
    · intro out host port names
      rw [parseHostPort_of_names names]
      exact ⟨rfl, names.toInt_port⟩
    · intro host port names
      refine ⟨_, zenohEndpoint_of_names names, ?_⟩
      rcases names with ⟨text, -, nonempty, -, -, least, greatest⟩
      exact names_repr nonempty least greatest

theorem parsesExactly_split_iff (last : ':' ∉ text.toList) :
    ParsesExactly (host ++ ":" ++ text) ↔
      host = "" ∨ (∀ c ∈ text.toList, c.isDigit) ∧ digitsValue text.toList ≤ 65535 ∨
        ¬ BeginsPositive text := by
  rw [parsesExactly_iff_accepted]
  simp only [accepted_split last, names_split last]
  refine ⟨?_, ?_⟩
  · intro sound
    by_contra mistaken
    obtain ⟨nonempty, rest⟩ := not_or.mp mistaken
    obtain ⟨notPort, positive⟩ := not_or.mp rest
    obtain ⟨_, _, -, -, digits, rfl, -, greatest⟩ :=
      sound ⟨"", 0⟩ ⟨nonempty, not_not.mp positive⟩
    exact notPort ⟨digits, greatest⟩
  · intro condition out accepted
    rcases condition with empty | port | negative
    · exact absurd empty accepted.1
    · exact ⟨host, _, rfl, accepted.1, port.1, rfl,
        (beginsPositive_iff_of_digits port.1 port.2).mp accepted.2, port.2⟩
    · exact absurd accepted.2 negative

/-- The parser is exact on the peers behind whose last colon stands a port or nothing
that begins like one. -/
theorem parsesExactly_iff (peer : String) : ParsesExactly peer ↔ Unmistakable peer := by
  by_cases colon : ':' ∈ peer.toList
  · obtain ⟨host, text, rfl, last⟩ := exists_split colon
    rw [parsesExactly_split_iff last]
    refine ⟨?_, ?_⟩
    · intro condition host' text' same last'
      obtain ⟨rfl, rfl⟩ := split_unique same last last'
      exact condition
    · intro unmistakable
      exact unmistakable host text rfl last
  · -- without a colon there is nothing to accept and nothing to mistake
    have exact' : ParsesExactly peer := parsesExactly_iff_accepted.mpr fun out accepted => by
      rw [parseHostPort_of_notMem colon] at accepted
      cases accepted
    refine ⟨fun _ host text same _ => absurd ?_ colon, fun _ => exact'⟩
    rw [same, toList_split]
    exact List.mem_append_right _ List.mem_cons_self

/-- Trailing text is dropped. -/
theorem not_parsesExactly_trailing : ¬ ParsesExactly "127.0.0.1:7420x" := by
  have last : ':' ∉ "7420x".toList := by decide
  have positive : BeginsPositive "7420x" := by decide +kernel
  have split : "127.0.0.1:7420x" = "127.0.0.1" ++ ":" ++ "7420x" := rfl
  rw [split, parsesExactly_split_iff last]
  intro condition
  rcases condition with empty | port | negative
  · exact absurd empty (by decide)
  · exact absurd (port.1 'x' (by decide)) (by decide)
  · exact negative positive

end MiddlewareBench.Net
