import Mathlib.Data.List.Nodup
import MiddlewareBench.Net.PingPong

/-!
# Whose echo ends an iteration

The invariant of ping-pong runs, in four parts: how the requests are numbered
(`Numbered`), what the replies answer (`Echoed`), how far the current iteration
has got (`Underway`), and what was measured (`Measured`). Request `r` is what the
`r`-th `publish` sent, a probe or not, and reply `k` what the `k`-th `echo` sent.
-/

namespace MiddlewareBench.Net

open Bytes Runs

/-! ## What a run did -/

def Action.isPublish : Action → Bool
  | .publish .. => true
  | _ => false

def Action.isBegin : Action → Bool
  | .begin _ => true
  | _ => false

def Action.isFinish : Action → Bool
  | .finish _ => true
  | _ => false

def Action.echo? : Action → Option Nat
  | .echo request .. => some request
  | _ => none

/-- A step of the echoer. -/
def Action.isEchoer : Action → Bool
  | .echo .. | .ignore _ => true
  | _ => false

/-- A step while the publisher waits for an echo. -/
def Action.isWaiting : Action → Bool
  | .take _ => true
  | a => a.isEchoer

/-- How many requests were published. -/
def published (acts : List Action) : Nat := acts.countP Action.isPublish

/-- How many iterations were begun, and how many are over. -/
def begun (acts : List Action) : Nat := acts.countP Action.isBegin
def ended (acts : List Action) : Nat := acts.countP Action.isFinish

/-- The requests the replies answer, in order. -/
def echoes (acts : List Action) : List Nat := acts.filterMap Action.echo?

/-- Iteration `i` read `t0` and did nothing since. -/
def Began (i : Nat) (t0 : UInt64) : List Action → Prop :=
  Since (fun past => begun past = i) (.begin t0) fun a => a.isEchoer

/-- It then published request `r` and has waited since. -/
def Asked (i : Nat) (t0 : UInt64) (r : Nat) (acts : List Action) : Prop :=
  ∃ memory now, Since (fun past => Began i t0 past ∧ published past = r)
    (.publish memory now true) (fun a => a.isWaiting) acts

/-- It then took reply `k` and did nothing since. -/
def Answered (i : Nat) (t0 : UInt64) (r k : Nat) : List Action → Prop :=
  Since (Asked i t0 r) (.take k) fun a => a.isEchoer

/-- **An iteration.** Iteration `i` read `t0`, published request `r`, waited until
it took reply `k`, and read `t1`. -/
def Timed (i : Nat) (t0 t1 : UInt64) (r k : Nat) : List Action → Prop :=
  Since (Answered i t0 r k) (.finish t1) fun _ => True

theorem published_concat (acts : List Action) (a : Action) :
    published (acts ++ [a]) = published acts + a.isPublish.toNat := by
  rw [published, List.countP_append, published, List.countP_singleton]
  cases a <;> rfl

theorem begun_concat (acts : List Action) (a : Action) :
    begun (acts ++ [a]) = begun acts + a.isBegin.toNat := by
  rw [begun, List.countP_append, begun, List.countP_singleton]
  cases a <;> rfl

theorem ended_concat (acts : List Action) (a : Action) :
    ended (acts ++ [a]) = ended acts + a.isFinish.toNat := by
  rw [ended, List.countP_append, ended, List.countP_singleton]
  cases a <;> rfl

theorem echoes_concat (acts : List Action) (a : Action) :
    echoes (acts ++ [a]) = echoes acts ++ a.echo?.toList := by
  rw [echoes, List.filterMap_append, echoes]
  cases a <;> rfl

theorem echoes_keep {acts : List Action} {k r : Nat} (a : Action)
    (echoed : (echoes acts)[k]? = some r) : (echoes (acts ++ [a]))[k]? = some r := by
  rw [echoes_concat]
  exact getElem?_append_of_some echoed

theorem Asked.keep {i : Nat} {t0 : UInt64} {r : Nat} {acts : List Action} {a : Action}
    (asked : Asked i t0 r acts) (waiting : a.isWaiting) : Asked i t0 r (acts ++ [a]) := by
  rcases asked with ⟨memory, now, since⟩
  exact ⟨memory, now, since.keep waiting⟩

theorem Action.isWaiting_of_isEchoer {a : Action} (aside : a.isEchoer) : a.isWaiting := by
  cases a with
  | take => rfl
  | _ => exact aside

/-! ## How the requests are numbered -/

/-- How many iterations are begun, and how many are over. -/
def PubPc.begun? : PubPc → Option Nat
  | .probe _ | .link _ => some 0
  | .timed i => some i
  | .publish i _ | .await i _ | .echoed i _ => some (i + 1)
  | .finished | .failed => none

def PubPc.ended? : PubPc → Option Nat
  | .probe _ | .link _ => some 0
  | .timed i | .publish i _ | .await i _ | .echoed i _ => some i
  | .finished | .failed => none

/-- The number of the next request. -/
def PubPc.next? : PubPc → Option Nat
  | .probe i => some (i + 1)
  | .link i => some (i + 2)
  | .timed i | .publish i _ => some (1001 + i)
  | .await i _ | .echoed i _ => some (1002 + i)
  | .finished | .failed => none

/-- What the proofs need of a program: probes end below the timed requests, and a
message has the number it was written with. -/
structure Program.Lawful (net : Program) : Prop where
  probes : net.maxProbes ≤ 1000
  reads : ∀ {opt memory seq now message seq'}, net.write opt memory seq now = some message →
    net.readSeq message = some seq' → seq' = seq

/-- The counters say what was done, and every request sent has a number below the
next one. -/
structure Numbered (net : Program) (acts : List Action) (s : State net.Message) : Prop where
  published : published acts = s.requests.length
  begun : ∀ n, s.pc.begun? = some n → begun acts = n
  ended : ∀ n, s.pc.ended? = some n → ended acts = n
  few : Net.begun acts < 2 ^ 31
  seq : s.seq.toNat = 1000 + Net.begun acts
  linking : ∀ i, s.pc = .link i → i < net.maxProbes
  below : ∀ next, s.pc.next? = some next → ∀ request ∈ s.requests, ∀ seq,
    net.readSeq request = some seq → seq.toNat < next

variable {net : Program} {pub sub : Options} {acts : List Action} {s t : State net.Message}
  {a : Action}

/-- A step that publishes, begins and ends nothing. -/
theorem Numbered.frame (numbered : Numbered net acts s) (unpublished : a.isPublish = false)
    (unbegun : a.isBegin = false) (unended : a.isFinish = false)
    (requests : t.requests = s.requests) (seq : t.seq = s.seq)
    (begun : ∀ n, t.pc.begun? = some n → s.pc.begun? = some n)
    (ended : ∀ n, t.pc.ended? = some n → s.pc.ended? = some n)
    (linking : ∀ i, t.pc = .link i → s.pc = .link i)
    (next : ∀ n, t.pc.next? = some n → ∃ n' ≤ n, s.pc.next? = some n') :
    Numbered net (acts ++ [a]) t := by
  have samePublished : Net.published (acts ++ [a]) = Net.published acts := by
    rw [published_concat, unpublished]
    rfl
  have sameBegun : Net.begun (acts ++ [a]) = Net.begun acts := by
    rw [begun_concat, unbegun]
    rfl
  have sameEnded : Net.ended (acts ++ [a]) = Net.ended acts := by
    rw [ended_concat, unended]
    rfl
  constructor
  · rw [samePublished, requests, numbered.published]
  · intro n now
    rw [sameBegun, numbered.begun n (begun n now)]
  · intro n now
    rw [sameEnded, numbered.ended n (ended n now)]
  · rw [sameBegun]
    exact numbered.few
  · rw [seq, sameBegun, numbered.seq]
  · exact fun i now => numbered.linking i (linking i now)
  · intro n now request member seq read
    obtain ⟨n', le, before⟩ := next n now
    exact Nat.lt_of_lt_of_le
      (numbered.below n' before request (requests ▸ member) seq read) le

/-- A step that is none of the publisher's. -/
theorem Numbered.aside (numbered : Numbered net acts s) (unpublished : a.isPublish = false)
    (unbegun : a.isBegin = false) (unended : a.isFinish = false)
    (requests : t.requests = s.requests) (seq : t.seq = s.seq) (pc : t.pc = s.pc) :
    Numbered net (acts ++ [a]) t := by
  apply numbered.frame unpublished unbegun unended requests seq
  · exact fun n now => pc ▸ now
  · exact fun n now => pc ▸ now
  · exact fun i now => pc ▸ now
  · exact fun n now => ⟨n, Nat.le_refl n, pc ▸ now⟩

/-- A step that publishes a request with the next number. -/
theorem Numbered.publish (lawful : net.Lawful) (numbered : Numbered net acts s)
    {opt : Options} {memory : Block} {now seq : UInt64} {ok : Bool} {message : net.Message}
    (written : net.write opt memory seq now = some message)
    (next : s.pc.next? = some seq.toNat) (pc : PubPc)
    (begun : ∀ n, pc.begun? = some n → s.pc.begun? = some n)
    (ended : ∀ n, pc.ended? = some n → s.pc.ended? = some n)
    (linking : ∀ i, pc = .link i → i < net.maxProbes)
    (later : ∀ n, pc.next? = some n → n = seq.toNat + 1) :
    Numbered net (acts ++ [.publish memory now ok])
      { s with requests := s.requests ++ [message], pc } := by
  have sameBegun : Net.begun (acts ++ [.publish memory now ok]) = Net.begun acts := by
    rw [begun_concat]
    rfl
  have sameEnded : Net.ended (acts ++ [.publish memory now ok]) = Net.ended acts := by
    rw [ended_concat]
    rfl
  constructor
  · rw [published_concat, numbered.published, List.length_append]
    rfl
  · intro n at'
    rw [sameBegun, numbered.begun n (begun n at')]
  · intro n at'
    rw [sameEnded, numbered.ended n (ended n at')]
  · rw [sameBegun]
    exact numbered.few
  · rw [sameBegun]
    exact numbered.seq
  · exact linking
  · intro n at' request member seq' read
    rw [later n at']
    rcases List.mem_append.mp member with old | own
    · exact Nat.lt_succ_of_lt (numbered.below _ next request old seq' read)
    · rw [List.mem_singleton.mp own] at read
      rw [lawful.reads written read]
      exact Nat.lt_succ_self _

theorem Numbered.step (lawful : net.Lawful) (numbered : Numbered net acts s)
    (stepped : step net pub sub s a = some t) : Numbered net (acts ++ [a]) t := by
  cases step_cases stepped with
  | unmatched i pc =>
      exact numbered.frame rfl rfl rfl rfl rfl (by simp [pc, PubPc.begun?])
        (by simp [pc, PubPc.ended?]) (by simp) (by simp [pc, PubPc.next?])
  | probe i memory now ok message pc below written =>
      have probes := lawful.probes
      have number : (UInt64.ofNat (i + 1)).toNat = i + 1 :=
        UInt64.toNat_ofNat_of_lt' (by rw [UInt64.size]; omega)
      apply numbered.publish lawful written
      · rw [pc, number]
        rfl
      · rw [pc]
        cases ok <;> exact fun n => id
      · rw [pc]
        cases ok <;> exact fun n => id
      · cases ok <;> simp [below]
      · rw [number]
        cases ok <;> simp [PubPc.next?, eq_comm]
  | publish i t0 memory now ok message pc written =>
      have number : s.seq.toNat = 1001 + i := by
        rw [numbered.seq, numbered.begun (i + 1) (by rw [pc]; rfl)]
        omega
      apply numbered.publish lawful written
      · rw [pc, number]
        rfl
      · rw [pc]
        cases ok <;> simp [PubPc.begun?]
      · rw [pc]
        cases ok <;> simp [PubPc.ended?]
      · cases ok <;> simp
      · rw [number]
        cases ok <;> simp [PubPc.next?]
        omega
  | linked i reply pc =>
      have probes := lawful.probes
      have few := numbered.linking i pc
      refine numbered.frame rfl rfl rfl rfl rfl (by simp [pc, PubPc.begun?])
        (by simp [pc, PubPc.ended?]) (by simp) ?_
      intro n next
      cases next
      exact ⟨i + 2, by omega, by rw [pc]; rfl⟩
  | pass => exact numbered.aside rfl rfl rfl rfl rfl rfl
  | answer i t0 reply message pc sent same =>
      exact numbered.frame rfl rfl rfl rfl rfl (by simp [pc, PubPc.begun?])
        (by simp [pc, PubPc.ended?]) (by simp) (by simp [pc, PubPc.next?])
  | retry i pc =>
      exact numbered.frame rfl rfl rfl rfl rfl (by simp [pc, PubPc.begun?])
        (by simp [pc, PubPc.ended?]) (by simp) (by simp [pc, PubPc.next?])
  | timeout =>
      exact numbered.frame rfl rfl rfl rfl rfl (by simp [PubPc.begun?])
        (by simp [PubPc.ended?]) (by simp) (by simp [PubPc.next?])
  | begin i t0 pc more =>
      have count := numbered.begun i (by rw [pc]; rfl)
      have small := (pub.warmup + pub.count).toInt_lt
      unfold Net.more at more
      have one : Net.begun (acts ++ [.begin t0]) = Net.begun acts + 1 := begun_concat acts _
      constructor
      · rw [published_concat]
        exact numbered.published
      · intro n now
        rw [one, count]
        exact Option.some.inj now
      · intro n now
        rw [ended_concat]
        exact numbered.ended n (by rw [pc]; exact now)
      · omega
      · rw [one, UInt64.toNat_add, numbered.seq, UInt64.toNat_one]
        have few := numbered.few
        omega
      · simp
      · intro n next
        exact numbered.below n (by rw [pc]; exact next)
  | finish i t0 t1 pc =>
      constructor
      · rw [published_concat]
        exact numbered.published
      · intro n now
        rw [begun_concat]
        exact numbered.begun n (by rw [pc]; exact now)
      · intro n now
        rw [ended_concat, numbered.ended i (by rw [pc]; rfl)]
        exact Option.some.inj now
      · rw [begun_concat]
        exact numbered.few
      · rw [begun_concat]
        exact numbered.seq
      · simp
      · intro n next request member seq read
        have old := numbered.below (1002 + i) (by rw [pc]; rfl) request member seq read
        have same : 1001 + (i + 1) = n := Option.some.inj next
        omega
  | leave pc over' =>
      rcases over' with rfl | rfl
      all_goals
        exact numbered.frame rfl rfl rfl rfl rfl (by simp [PubPc.begun?])
          (by simp [PubPc.ended?]) (by simp) (by simp [PubPc.next?])
  | echo | ignore => exact numbered.aside rfl rfl rfl rfl rfl rfl

/-! ## What the replies answer -/

/-- A reply has the number of the request it answers: the echoer makes up none. -/
structure Echoed (net : Program) (acts : List Action) (s : State net.Message) : Prop where
  count : (echoes acts).length = s.replies.length
  answers : ∀ (k : Nat) reply, s.replies[k]? = some reply → ∃ (r : Nat) (request : net.Message),
    (echoes acts)[k]? = some r ∧ s.requests[r]? = some request ∧
      ∀ seq, net.readSeq reply = some seq → net.readSeq request = some seq

/-- A step that sends no reply. -/
theorem Echoed.frame (echoed : Echoed net acts s) (quiet : a.echo? = none)
    (replies : t.replies = s.replies) (requests : s.requests <+: t.requests) :
    Echoed net (acts ++ [a]) t := by
  rcases requests with ⟨more, grown⟩
  refine ⟨?_, ?_⟩
  · rw [echoes_concat, quiet, Option.toList_none, List.append_nil, replies, echoed.count]
  · intro k reply there
    obtain ⟨r, request, answered, sent, same⟩ := echoed.answers k reply (replies ▸ there)
    exact ⟨r, request, echoes_keep a answered, grown ▸ getElem?_append_of_some sent, same⟩

theorem Echoed.step (lawful : net.Lawful) (echoed : Echoed net acts s)
    (stepped : step net pub sub s a = some t) : Echoed net (acts ++ [a]) t := by
  cases step_cases stepped with
  | probe | publish => exact echoed.frame rfl rfl (List.prefix_append _ _)
  | unmatched | linked | pass | answer | retry | timeout | begin | finish | leave | ignore =>
      exact echoed.frame rfl rfl (List.prefix_refl _)
  | echo request memory now ok message reply seq sent read written =>
      refine ⟨?_, ?_⟩
      · rw [echoes_concat, List.length_append, echoed.count, List.length_append]
        rfl
      · intro k reply' there
        rcases getElem?_concat_cases there with old | ⟨own, rfl⟩
        · obtain ⟨r, request', answered, sent', same⟩ := echoed.answers k reply' old
          exact ⟨r, request', echoes_keep _ answered, sent', same⟩
        · refine ⟨request, message, ?_, sent, ?_⟩
          · rw [echoes_concat, own, ← echoed.count]
            exact List.getElem?_concat_length
          · intro seq' readBack
            rw [lawful.reads written readBack]
            exact read

/-! ## The current iteration -/

/-- Reply `k` is an echo of request `r`, which has the number of iteration `i`. -/
def EchoOf (acts : List Action) (s : State net.Message) (i r k : Nat) : Prop :=
  (echoes acts)[k]? = some r ∧ ∃ request, s.requests[r]? = some request ∧
    ∃ seq, net.readSeq request = some seq ∧ seq.toNat = 1001 + i

theorem EchoOf.keep {i r k : Nat} (echo : EchoOf acts s i r k)
    (requests : s.requests <+: t.requests) : EchoOf (acts ++ [a]) t i r k := by
  rcases requests with ⟨more, grown⟩
  rcases echo with ⟨echoed, request, sent, number⟩
  exact ⟨echoes_keep a echoed, request, grown ▸ getElem?_append_of_some sent, number⟩

/-- How far the current iteration has got. While its echo is awaited, its request
is the only one with its number. -/
structure Underway (net : Program) (acts : List Action) (s : State net.Message) : Prop where
  began : ∀ i t0, s.pc = .publish i t0 → Began i t0 acts
  asked : ∀ i t0, s.pc = .await i t0 → ∃ r : Nat, Asked i t0 r acts ∧
    ∀ (r' : Nat) request, s.requests[r']? = some request → net.readSeq request = some s.seq → r' = r
  answered : ∀ i t0, s.pc = .echoed i t0 → ∃ r k, Answered i t0 r k acts ∧ EchoOf acts s i r k

theorem Underway.aside (underway : Underway net acts s) (aside : a.isEchoer)
    (requests : t.requests = s.requests) (seq : t.seq = s.seq) (pc : t.pc = s.pc) :
    Underway net (acts ++ [a]) t := by
  refine ⟨?_, ?_, ?_⟩
  · intro i t0 now
    exact (underway.began i t0 (pc ▸ now)).keep aside
  · intro i t0 now
    obtain ⟨r, asked, only⟩ := underway.asked i t0 (pc ▸ now)
    refine ⟨r, asked.keep (Action.isWaiting_of_isEchoer aside), ?_⟩
    rw [requests, seq]
    exact only
  · intro i t0 now
    obtain ⟨r, k, answered, echo⟩ := underway.answered i t0 (pc ▸ now)
    exact ⟨r, k, answered.keep aside, echo.keep (requests ▸ List.prefix_refl _)⟩

/-- A state outside an iteration. -/
theorem Underway.outside (began : ∀ i t0, t.pc ≠ .publish i t0)
    (asked : ∀ i t0, t.pc ≠ .await i t0) (answered : ∀ i t0, t.pc ≠ .echoed i t0) :
    Underway net acts t where
  began i t0 now := absurd now (began i t0)
  asked i t0 now := absurd now (asked i t0)
  answered i t0 now := absurd now (answered i t0)

theorem Underway.step (underway : Underway net acts s) (numbered : Numbered net acts s)
    (echoed : Echoed net acts s) (stepped : step net pub sub s a = some t) :
    Underway net (acts ++ [a]) t := by
  cases step_cases stepped with
  | unmatched | linked | retry | timeout | finish =>
      apply Underway.outside <;> simp
  | probe i memory now ok =>
      cases ok <;> apply Underway.outside <;> simp
  | leave pc over' =>
      rcases over' with rfl | rfl <;> apply Underway.outside <;> simp
  | pass reply waiting =>
      rcases waiting with ⟨i, pc⟩ | ⟨i, t0, pc⟩
      · apply Underway.outside <;> simp [pc]
      · refine ⟨by simp [pc], ?_, by simp [pc]⟩
        intro i' t0' now
        obtain ⟨r, asked, only⟩ := underway.asked i' t0' now
        exact ⟨r, asked.keep rfl, only⟩
  | echo | ignore => exact underway.aside rfl rfl rfl rfl
  | begin i t0 pc more =>
      refine ⟨?_, by simp, by simp⟩
      intro i' t0' now
      cases now
      exact Since.now (numbered.begun i (by rw [pc]; rfl))
  | publish i t0 memory now ok message pc written =>
      cases ok with
      | false => apply Underway.outside <;> simp
      | true =>
          refine ⟨by simp, ?_, by simp⟩
          intro i' t0' at'
          cases at'
          refine ⟨s.requests.length,
            ⟨memory, now, Since.now ⟨underway.began i t0 pc, numbered.published⟩⟩, ?_⟩
          intro r' request sent read
          rcases getElem?_concat_cases sent with old | ⟨own, -⟩
          · -- an earlier request has a smaller number
            have earlier := numbered.below (1001 + i) (by rw [pc]; rfl) request
              (List.mem_of_getElem? old) s.seq read
            have number := numbered.seq
            rw [numbered.begun (i + 1) (by rw [pc]; rfl)] at number
            omega
          · exact own
  | answer i t0 k reply pc sent same =>
      refine ⟨by simp, by simp, ?_⟩
      intro i' t0' at'
      cases at'
      obtain ⟨r, asked, only⟩ := underway.asked i t0 pc
      obtain ⟨r', request, echo, sent', number⟩ := echoed.answers k reply sent
      have own := only r' request sent' (number s.seq same)
      rw [own] at echo sent'
      refine ⟨r, k, Since.now asked, echoes_keep _ echo, request, sent', s.seq,
        number s.seq same, ?_⟩
      rw [numbered.seq, numbered.begun (i + 1) (by rw [pc]; rfl)]
      omega

/-! ## What is measured -/

/-- Reply `ends[i]` ended iteration `i`, and what the iterations after the warmup
took is recorded. -/
structure Measured (pub : Options) (acts : List Action) (s : State net.Message)
    (ends : List Nat) : Prop where
  count : ends.length = ended acts
  recorded : s.halfUs.length = ended acts - pub.warmup.toInt.toNat
  own : ∀ (i k : Nat), ends[i]? = some k → ∃ t0 t1 r, Timed i t0 t1 r k acts ∧
    EchoOf acts s i r k ∧ (pub.warmup.toInt.toNat ≤ i →
      s.halfUs[i - pub.warmup.toInt.toNat]? = some (halfRttUs t1 t0))

theorem Measured.frame {ends : List Nat} (measured : Measured pub acts s ends)
    (unended : a.isFinish = false) (requests : s.requests <+: t.requests)
    (halfUs : t.halfUs = s.halfUs) : Measured pub (acts ++ [a]) t ends := by
  have same : ended (acts ++ [a]) = ended acts := by
    rw [ended_concat, unended]
    rfl
  refine ⟨by rw [same, measured.count], by rw [halfUs, same, measured.recorded], ?_⟩
  intro i k at'
  obtain ⟨t0, t1, r, timed, echo, value⟩ := measured.own i k at'
  refine ⟨t0, t1, r, timed.keep trivial, echo.keep requests, ?_⟩
  rw [halfUs]
  exact value

theorem Measured.step {ends : List Nat} (measured : Measured pub acts s ends)
    (numbered : Numbered net acts s) (underway : Underway net acts s)
    (stepped : step net pub sub s a = some t) : ∃ ends, Measured pub (acts ++ [a]) t ends := by
  cases step_cases stepped with
  | probe | publish => exact ⟨ends, measured.frame rfl (List.prefix_append _ _) rfl⟩
  | unmatched | linked | pass | answer | retry | timeout | begin | leave | echo | ignore =>
      exact ⟨ends, measured.frame rfl (List.prefix_refl _) rfl⟩
  | finish i t0 t1 pc =>
      obtain ⟨r, k, answered, echo⟩ := underway.answered i t0 pc
      have over' := numbered.ended i (by rw [pc]; rfl)
      have one : ended (acts ++ [.finish t1]) = i + 1 := by
        rw [ended_concat, over']
        rfl
      have recorded := measured.recorded
      rw [over'] at recorded
      refine ⟨ends ++ [k], ?_, ?_, ?_⟩
      · rw [one, List.length_append, measured.count, over']
        rfl
      · rw [one]
        split
        · rw [List.length_append, recorded, List.length_singleton]
          omega
        · rw [recorded]
          omega
      · intro i' k' at'
        rcases getElem?_concat_cases at' with old | ⟨own, rfl⟩
        · obtain ⟨t0', t1', r', timed, echo', value⟩ := measured.own i' k' old
          refine ⟨t0', t1', r', timed.keep trivial, echo'.keep (List.prefix_refl _), ?_⟩
          intro after
          split
          · exact getElem?_append_of_some (value after)
          · exact value after
        · rw [measured.count, over'] at own
          subst own
          refine ⟨t0, t1, r, Since.now answered, echo.keep (List.prefix_refl _), ?_⟩
          intro after
          rw [if_pos (by omega), ← recorded]
          exact List.getElem?_concat_length

/-- No reply ends two iterations. -/
theorem Measured.nodup {ends : List Nat} (measured : Measured pub acts s ends) : ends.Nodup := by
  rw [List.nodup_iff_getElem?_ne_getElem?]
  intro i j earlier inside same
  obtain ⟨k, at'⟩ : ∃ k, ends[j]? = some k := ⟨ends[j], List.getElem?_eq_getElem inside⟩
  obtain ⟨-, -, r, -, ⟨echo, request, sent, seq, read, number⟩, -⟩ :=
    measured.own i k (same.trans at')
  obtain ⟨-, -, r', -, ⟨echo', request', sent', seq', read', number'⟩, -⟩ := measured.own j k at'
  rw [echo, Option.some.injEq] at echo'
  subst echo'
  rw [sent, Option.some.injEq] at sent'
  subst sent'
  rw [read, Option.some.injEq] at read'
  subst read'
  omega

/-! ## Every order of deliveries -/

/-- The invariant of a run. -/
structure Sound (net : Program) (pub : Options) (acts : List Action) (s : State net.Message) :
    Prop where
  numbered : Numbered net acts s
  echoed : Echoed net acts s
  underway : Underway net acts s
  measured : ∃ ends, Measured pub acts s ends

theorem sound_start (net : Program) (pub : Options) : Sound net pub [] {} where
  numbered := ⟨rfl, by simp [PubPc.begun?, begun], by simp [PubPc.ended?, ended], by decide,
    rfl, by simp, by simp⟩
  echoed := ⟨rfl, by simp⟩
  underway := Underway.outside (by simp) (by simp) (by simp)
  measured := ⟨[], rfl, by simp [ended], by simp⟩

theorem run_sound (lawful : net.Lawful) (ran : run (step net pub sub) {} acts = some s) :
    Sound net pub acts s := by
  refine run_history (P := Sound net pub) (sound_start net pub) ?_ ran
  intro past m a t sound stepped
  obtain ⟨ends, measured⟩ := sound.measured
  exact ⟨sound.numbered.step lawful stepped, sound.echoed.step lawful stepped,
    sound.underway.step sound.numbered sound.echoed stepped,
    measured.step sound.numbered sound.underway stepped⟩

/-! ## The three programs -/

variable {fbs : Flatbuffers}

theorem Flatbuffers.Lawful.reads (lawful : fbs.Lawful) {opt : Options} {memory : Block}
    {seq now seq' : UInt64} {message : Block}
    (written : sampleBytes fbs opt memory seq now = some message)
    (read : readSampleMeta fbs message = some seq') : seq' = seq := by
  unfold readSampleMeta at read
  rw [Option.ite_none_left_eq_some, Option.some.injEq] at read
  rw [← read.2, lawful.seq_mutateSendNs _ now message written]
  exact lawful.seq_createSample ..

theorem subspaceNet_lawful (lawful : fbs.Lawful) : (subspaceNet fbs).Lawful where
  probes := show 200 ≤ 1000 by decide
  reads := lawful.reads

theorem zenohNet_lawful (lawful : fbs.Lawful) : (zenohNet fbs).Lawful where
  probes := show 100 ≤ 1000 by decide
  reads := lawful.reads

theorem cycloneNet_lawful : cycloneNet.Lawful where
  probes := by decide
  reads written read := by
    cases written
    exact (Option.some.inj read).symm

/-- **Each iteration is ended by an echo of its own request**, in every order of
publishes, echoes, deliveries and timeouts: iteration `i` read `t0`, published
request `r`, waited until it took reply `ends[i]`, which is an echo of request `r`,
and read `t1`; no reply ends two iterations; and the values recorded are those of
the iterations after the warmup. -/
theorem iterations_attributed (fbs : Flatbuffers) (lawful : fbs.Lawful) (net : Program)
    (one : net = subspaceNet fbs ∨ net = zenohNet fbs ∨ net = cycloneNet) (pub sub : Options)
    (acts : List Action) (s : State net.Message)
    (ran : run (step net pub sub) {} acts = some s) :
    ∃ ends : List Nat, ends.length = ended acts ∧ ends.Nodup ∧
      (∀ (i k : Nat), ends[i]? = some k → ∃ t0 t1 r, Timed i t0 t1 r k acts ∧
        (echoes acts)[k]? = some r ∧ (pub.warmup.toInt.toNat ≤ i →
          s.halfUs[i - pub.warmup.toInt.toNat]? = some (halfRttUs t1 t0))) ∧
      s.halfUs.length = ended acts - pub.warmup.toInt.toNat := by
  have netLawful : net.Lawful := by
    rcases one with rfl | rfl | rfl
    · exact subspaceNet_lawful lawful
    · exact zenohNet_lawful lawful
    · exact cycloneNet_lawful
  obtain ⟨ends, measured⟩ := (run_sound netLawful ran).measured
  refine ⟨ends, measured.count, measured.nodup, ?_, measured.recorded⟩
  intro i k at'
  obtain ⟨t0, t1, r, timed, ⟨echo, -⟩, value⟩ := measured.own i k at'
  exact ⟨t0, t1, r, timed, echo, value⟩

/-- Samples whose two numbers come first. -/
def packed : Flatbuffers where
  createSample seq sendNs data := leBytes 8 seq.toNat ++ (leBytes 8 sendNs.toNat ++ data)
  seq buf := UInt64.ofNat (leNat (slice buf 0 8))
  mutateSendNs buf sendNs :=
    if buf.length < 16 then none else some (writeAt buf 8 (leBytes 8 sendNs.toNat))

theorem packed_lawful : packed.Lawful where
  seq_createSample seq sendNs data := by
    have first : slice (leBytes 8 seq.toNat ++ (leBytes 8 sendNs.toNat ++ data)) 0 8 =
        leBytes 8 seq.toNat := by
      rw [slice_append_left (by rw [length_leBytes])]
      exact List.take_of_length_le (by rw [List.drop_zero, length_leBytes])
    show UInt64.ofNat (leNat (slice (leBytes 8 seq.toNat ++ _) 0 8)) = seq
    rw [first, ofNat_leNat_u64]
  seq_mutateSendNs buf sendNs stamped written := by
    obtain ⟨room, same⟩ := Option.ite_none_left_eq_some.mp written
    rw [← Option.some.inj same]
    show UInt64.ofNat (leNat (slice (writeAt buf 8 _) 0 8)) = UInt64.ofNat (leNat (slice buf 0 8))
    rw [slice_writeAt_before (by rw [length_leBytes]; omega) (by decide)]

/-- The echo of the first probe comes back while the first request is timed. -/
def lateProbe : List Action :=
  [.publish [] 1 true, .expire, .publish [] 2 true, .echo 0 [] 3 true, .echo 1 [] 4 true, .take 1,
    .begin 100, .publish [] 101 true, .take 0, .echo 2 [] 110 true, .take 2, .finish 2100, .leave]

theorem iterations_attributed_lateProbe :
    ∃ s, run (step (subspaceNet packed) { count := 1, warmup := 0 } {}) {} lateProbe = some s ∧
      s.halfUs = [1] ∧ ∃ k t0 t1 r, Timed 0 t0 t1 r k lateProbe ∧
        (echoes lateProbe)[k]? = some r ∧ some 1 = some (halfRttUs t1 t0) := by
  have records : (run (step (subspaceNet packed) { count := 1, warmup := 0 } {}) {}
      lateProbe).map State.halfUs = some [1] := by decide +kernel
  obtain ⟨s, ran, halfUs⟩ := Option.map_eq_some_iff.mp records
  obtain ⟨ends, count, -, own, -⟩ := iterations_attributed packed packed_lawful (subspaceNet packed)
    (.inl rfl) { count := 1, warmup := 0 } {} lateProbe s ran
  have inside : 0 < ends.length := by
    rw [count]
    decide
  obtain ⟨t0, t1, r, timed, echo, value⟩ := own 0 ends[0] (List.getElem?_eq_getElem inside)
  refine ⟨s, ran, halfUs, ends[0], t0, t1, r, timed, echo, ?_⟩
  rw [halfUs] at value
  exact value (Nat.le_refl _)

end MiddlewareBench.Net
