import Mathlib.Data.List.Forall2
import Telemetry.Agent.Sender
import Telemetry.Proofs.Result
import Telemetry.Proofs.Retry

/-!
Deliveries by what they ask of the network. Main statement: a delivery is a sequence of attempts,
each of which sends the requests of its job from the first one up to the first that fails, and it is
a timeout alone that is followed by another attempt. A job that an agent makes of a report comes to
one request, so at most one of its requests succeeds.
-/
namespace Telemetry.Agent

inductive Asked where
  | http (url : Url) (request : Request)
  | rpc (call : Call)

inductive Exchange where
  | http (url : Url) (request : Request) (answer : Except SendFault Nat)
  | rpc (call : Call) (status : RpcStatus)

namespace Exchange

def asked : Exchange → Asked
  | http url request _ => .http url request
  | rpc call _ => .rpc call

def result : Exchange → Except SendFault Unit
  | http _ _ (.ok status) => if 200 ≤ status ∧ status < 300 then .ok () else .error (.status status)
  | http _ _ (.error fault) => .error fault
  | rpc _ status => RpcSender.resultOf status

def succeeded (exchange : Exchange) : Bool := exchange.result.isOk

end Exchange

section Logs

variable {σ : Type}

def Network.logged (network : Network σ) : Network (σ × List Exchange) where
  draw := fun world => ((network.draw world.1).1, (network.draw world.1).2, world.2)
  exchange := fun url request world =>
    let (answer, next) := network.exchange url request world.1
    (answer, next, world.2 ++ [.http url request answer])

def RpcNetwork.logged (network : RpcNetwork σ) : RpcNetwork (σ × List Exchange) := fun call world =>
  let (status, next) := network call world.1
  (status, next, world.2 ++ [.rpc call status])

end Logs

/-- A request as it is asked, if it could be made and its URL is one that can be reached. -/
def HttpSender.ask : Except SendFault (Url × Request) → Except SendFault Asked
  | .ok (url, request) =>
    if isReachable url then .ok (.http url request) else .error (.request "builder error")
  | .error fault => .error fault

/-- What is asked for a job, in order and each by the bytes that are drawn for it; what cannot be
asked is a fault. -/
def Sender.asked (sender : Sender) (job : Job) : List (Bytes → Except SendFault Asked) :=
  match sender with
  | .http sender => (sender.requests job).map fun prepare filler => HttpSender.ask (prepare filler)
  | .rpc sender => job.metrics.map fun m _ => .ok (.rpc (sender.call m).carried)

/-- One attempt to send a job: the exchanges it had, and what it came to. -/
structure Attempt where
  made : List Exchange
  result : Except SendFault Unit

/-- An exchange asks what some of the bytes that are drawn lead to. -/
def Sends (drawn : Bytes → Prop) (ask : Bytes → Except SendFault Asked) (exchange : Exchange) :
    Prop :=
  ∃ filler, drawn filler ∧ ask filler = .ok exchange.asked

/-- An attempt has asked from the first on, each with bytes of its own, up to the first fault, be it
one of the exchange or of something that cannot be asked. -/
inductive Attempt.Follows (drawn : Bytes → Prop) (asked : List (Bytes → Except SendFault Asked)) :
    Attempt → Prop
  | done {made : List Exchange} (sent : List.Forall₂ (Sends drawn) asked made)
      (succeeded : ∀ e ∈ made, e.result = .ok ()) : Follows drawn asked ⟨made, .ok ()⟩
  | failed {made : List Exchange} {last : Exchange}
      {front rest : List (Bytes → Except SendFault Asked)} {fault : SendFault}
      (split : asked = front ++ rest) (sent : List.Forall₂ (Sends drawn) front (made ++ [last]))
      (succeeded : ∀ e ∈ made, e.result = .ok ()) (failed : last.result = .error fault) :
      Follows drawn asked ⟨made ++ [last], .error fault⟩
  | impossible {made : List Exchange} {ask : Bytes → Except SendFault Asked}
      {front rest : List (Bytes → Except SendFault Asked)} {filler : Bytes} {fault : SendFault}
      (split : asked = front ++ ask :: rest) (sent : List.Forall₂ (Sends drawn) front made)
      (succeeded : ∀ e ∈ made, e.result = .ok ()) (chosen : drawn filler)
      (refused : ask filler = .error fault) : Follows drawn asked ⟨made, .error fault⟩

namespace Attempt

variable {drawn : Bytes → Prop} {ask : Bytes → Except SendFault Asked}
  {asked : List (Bytes → Except SendFault Asked)} {made : List Exchange}
  {result : Except SendFault Unit} {attempt : Attempt}

theorem Follows.cons {first : Exchange} (sends : Sends drawn ask first)
    (succeeded : first.result = .ok ()) (later : Follows drawn asked ⟨made, result⟩) :
    Follows drawn (ask :: asked) ⟨first :: made, result⟩ := by
  cases later with
  | done sent others => exact .done (.cons sends sent) (List.forall_mem_cons.2 ⟨succeeded, others⟩)
  | @failed made last front rest fault split sent others failed =>
    exact @Follows.failed _ _ (first :: made) last (ask :: front) rest fault
      (congrArg (ask :: ·) split)
      (.cons sends sent) (List.forall_mem_cons.2 ⟨succeeded, others⟩) failed
  | @impossible made other front rest filler fault split sent others chosen refused =>
    exact @Follows.impossible _ _ (first :: made) other (ask :: front) rest filler fault
      (congrArg (ask :: ·) split) (.cons sends sent) (List.forall_mem_cons.2 ⟨succeeded, others⟩)
        chosen refused

theorem Follows.single {last : Exchange} {fault : SendFault} (sends : Sends drawn ask last)
    (failed : last.result = .error fault) (rest : List (Bytes → Except SendFault Asked)) :
    Follows drawn (ask :: rest) ⟨[last], .error fault⟩ :=
  @Follows.failed _ _ [] last [ask] rest fault rfl (.cons sends .nil) nofun failed

end Attempt

section Attempts

variable {σ : Type} {drawn : Bytes → Prop}
  {asked : List (Bytes → Except SendFault Asked)} {plain : Except SendFault Unit × σ}
  {logged : Except SendFault Unit × σ × List Exchange} {log : List Exchange}

/-- What came of an attempt and of the same one over networks that keep a log: the two agree, and
the log has grown by the exchanges of an attempt. -/
def Attempts (drawn : Bytes → Prop) (asked : List (Bytes → Except SendFault Asked))
    (log : List Exchange) (plain : Except SendFault Unit × σ)
    (logged : Except SendFault Unit × σ × List Exchange) : Prop :=
  ∃ made, Attempt.Follows drawn asked ⟨made, plain.1⟩ ∧ logged = (plain.1, plain.2, log ++ made)

theorem Attempts.cons {ask : Bytes → Except SendFault Asked} {first : Exchange}
    (sends : Sends drawn ask first) (succeeded : first.result = .ok ())
    (later : Attempts drawn asked (log ++ [first]) plain logged) :
    Attempts drawn (ask :: asked) log plain logged := by
  obtain ⟨made, follows, same⟩ := later
  refine ⟨first :: made, follows.cons sends succeeded, ?_⟩
  rw [same, List.append_assoc]
  rfl

theorem Attempts.single {ask : Bytes → Except SendFault Asked} {last : Exchange} {fault : SendFault}
    (sends : Sends drawn ask last)
    (failed : last.result = .error fault) (state : σ) (rest : List (Bytes → Except SendFault Asked))
    (log : List Exchange) :
    Attempts drawn (ask :: rest) log (.error fault, state) (.error fault, state, log ++ [last]) :=
  ⟨[last], .single sends failed rest, rfl⟩

theorem Attempts.impossible {ask : Bytes → Except SendFault Asked} {filler : Bytes}
    {fault : SendFault} (chosen : drawn filler) (refused : ask filler = .error fault) (state : σ)
    (rest : List (Bytes → Except SendFault Asked)) (log : List Exchange) :
    Attempts drawn (ask :: rest) log (.error fault, state) (.error fault, state, log) :=
  ⟨[], .impossible (List.nil_append _).symm .nil nofun chosen refused, by rw [List.append_nil]⟩

theorem Attempts.nil (state : σ) (log : List Exchange) :
    Attempts drawn [] log (.ok (), state) (.ok (), state, log) :=
  ⟨[], .done .nil nofun, by rw [List.append_nil]⟩

namespace HttpSender

variable {url : Url} (network : Network σ) (request : Request) (state : σ)

end HttpSender

end Attempts

/-! ### Deliveries -/

/-- What a delivery comes to with the last of its attempts: time that has run out is no success of
the schedule. -/
def conclusion (attempts : Nat) : Except SendFault Unit → Except SendFault Unit
  | .error .timeout => .error (.exhausted attempts .timeout)
  | result => result

/-- A sequence of attempts, in which another one follows exactly on a timeout, for as long as the
schedule has a delay left. -/
structure Sequence (drawn : Bytes → Prop) (asked : List (Bytes → Except SendFault Asked))
    (schedule : Retry.Schedule) (attempts : List Attempt) : Prop where
  follows : ∀ attempt ∈ attempts, attempt.Follows drawn asked
  some : 0 < attempts.length
  again : ∀ n (within : n < attempts.length),
    n + 1 < attempts.length ↔ attempts[n].result = .error .timeout ∧ n < schedule.length

namespace Sequence

variable {drawn : Bytes → Prop} {asked : List (Bytes → Except SendFault Asked)}
  {schedule : Retry.Schedule} {attempt : Attempt}
  {attempts : List Attempt}

theorem last (follows : attempt.Follows drawn asked)
    (ends : attempt.result = .error .timeout → schedule = []) :
    Sequence drawn asked schedule [attempt] where
  follows := by
    intro other member
    rw [List.mem_singleton.1 member]
    exact follows
  some := Nat.zero_lt_one
  again := by
    intro n within
    obtain rfl : n = 0 := Nat.lt_one_iff.1 within
    constructor
    · intro more
      exact absurd more (Nat.lt_irrefl 1)
    · intro timedOut
      rw [ends timedOut.1] at timedOut
      exact absurd timedOut.2 (Nat.lt_irrefl 0)

theorem cons (follows : attempt.Follows drawn asked) (timedOut : attempt.result = .error .timeout)
    (delay : Nat) (later : Sequence drawn asked schedule attempts) :
    Sequence drawn asked (delay :: schedule) (attempt :: attempts) where
  follows := List.forall_mem_cons.2 ⟨follows, later.follows⟩
  some := Nat.succ_pos _
  again := by
    intro n within
    cases n with
    | zero =>
      have more := later.some
      simp [timedOut, more]
    | succ n =>
      have shorter : n < attempts.length := Nat.lt_of_succ_lt_succ within
      have again := later.again n shorter
      simpa using again

end Sequence

section Deliveries

variable {σ : Type} {drawn : Bytes → Prop} {asked : List (Bytes → Except SendFault Asked)}
  {delays : Retry.Schedule} {first : Nat}
  {log : List Exchange} {transport : Transport σ} {logging : Transport (σ × List Exchange)}
    {job : Job}
  {state next : σ} {made : List Exchange}

theorem conclusion_of_lasting {result : Except SendFault Unit} (lasting : result ≠ .error .timeout)
    (attempts : Nat) :
    (result.mapError Retry.Failure.permanent).mapError SendFault.ofFailure =
      conclusion attempts result := by
  cases result with
  | ok => rfl
  | error fault => cases fault <;> first | rfl | exact absurd rfl lasting

/-- What comes of a job that is retried from an attempt on, with a log and without: a sequence of
attempts, whose exchanges are what the log has grown by. -/
structure Comes (drawn : Bytes → Prop) (asked : List (Bytes → Except SendFault Asked))
    (delays : Retry.Schedule) (first : Nat) (log : List Exchange)
    (plain : Retry.Outcome σ SendFault Unit)
    (logged : Retry.Outcome (σ × List Exchange) SendFault Unit) (front : List Attempt)
    (last : Attempt) : Prop where
  sequence : Sequence drawn asked delays (front ++ [last])
  result : plain.result.mapError SendFault.ofFailure = conclusion (first + front.length) last.result
  attempts : plain.attempts = first + front.length
  slept : plain.slept = delays.take front.length
  logged : logged = ⟨plain.result, plain.attempts, plain.slept,
    plain.state, log ++ (front ++ [last]).flatMap (·.made)⟩

/-- And otherwise it stands in front of what comes after its delay. -/
theorem Comes.cons {front : List Attempt} {last : Attempt}
    (follows : Attempt.Follows drawn asked ⟨made, .error .timeout⟩)
    (attempted : transport job state = (.error .timeout, next))
    (logged : logging job (state, log) = (.error .timeout, next, log ++ made)) (delay : Nat)
    (later : Comes drawn asked delays (first + 1) (log ++ made)
      (Retry.runFrom SendFault.isTransient (fun _ => transport job) (first + 1) delays next)
      (Retry.runFrom SendFault.isTransient (fun _ => logging job) (first + 1) delays
        (next, log ++ made))
      front last) :
    Comes drawn asked (delay :: delays) first log
      (Retry.runFrom SendFault.isTransient (fun _ => transport job) first (delay :: delays) state)
      (Retry.runFrom SendFault.isTransient (fun _ => logging job) first (delay :: delays)
        (state, log))
      (⟨made, .error .timeout⟩ :: front) last := by
  have count : first + 1 + front.length = first + (front.length + 1) := by omega
  rw [Retry.runFrom_of_transient attempted rfl, Retry.runFrom_of_transient logged rfl]
  constructor
  · exact .cons follows rfl delay later.sequence
  · rw [List.length_cons, ← count]
    exact later.result
  · rw [List.length_cons, ← count]
    exact later.attempts
  · exact congrArg (delay :: ·) later.slept
  · rw [later.logged, List.cons_append, List.flatMap_cons, List.append_assoc]

end Deliveries
end Telemetry.Agent
