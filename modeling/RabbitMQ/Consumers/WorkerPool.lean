import RabbitMQ.Lib.Transition
import RabbitMQ.Lib.OrderedMap

/-! A pool of worker threads: calls of `run` wait in a queue for an idle worker, and a worker that
exits is spawned again until its budget is spent.

The application may call at any moment. What a worker emits is heard when no continuation is
pending. A thread sends one message for each payload, and the message is under way for a while. -/

namespace RabbitMQ
namespace WorkerPool

open Transition

structure Config where
  workerCount : Nat
  maxRespawns : Nat

/-- A message of a worker: the call whose payload it answers, and those whose payload had been
posted when it was sent. -/
structure Message where
  answers : Nat
  heard : List Nat
  deriving DecidableEq

/-- A worker thread. -/
structure Thread where
  workerId : Nat
  /-- it has not emitted `'exit'` -/
  live : Bool
  /-- The calls whose payload was posted to it. -/
  posted : List Nat
  /-- how many of them it has answered -/
  answered : Nat
  /-- messages under way -/
  outbox : List Message
  deriving DecidableEq

def Thread.fresh (workerId : Nat) : Thread := ⟨workerId, true, [], 0, []⟩

inductive RunError where
  /-- 'Worker pool has been terminated' -/
  | terminated
  /-- 'All workers have died and exceeded the respawn limit' -/
  | allDied
  /-- 'Worker exited while processing a message' -/
  | exited
  /-- the error of the worker -/
  | worker
  /-- what `worker.postMessage` throws for a payload that cannot be cloned -/
  | dataClone
  deriving DecidableEq

inductive RunResult where
  | resolved (message : Message)
  | rejected (error : RunError)
  deriving DecidableEq

/-- A call of `run`. -/
inductive Run where
  /-- its promise is in `waiters` -/
  | waiting
  /-- it has a worker, and is about to post its payload -/
  | acquired (worker : Nat)
  | inFlight (worker : Nat)
  /-- it has its result, and is about to release its worker -/
  | releasing (worker : Nat) (result : RunResult)
  | settled (result : RunResult)
  deriving DecidableEq

structure State where
  /-- Every thread there ever was. -/
  threads : List Thread
  workers : List Nat
  idleWorkers : List Nat
  waiters : List Nat
  respawnCounts : OrderedMap Nat Nat
  terminated : Bool
  /-- The workers whose `terminate()` the pool awaits. -/
  terminating : Option (List Nat)
  /-- The calls of `run`, oldest first. -/
  runs : List Run

namespace State

def live (s : State) (worker : Nat) : Bool := s.threads[worker]?.any (·.live)

def respawns (s : State) (workerId : Nat) : Nat := (s.respawnCounts.get? workerId).getD 0

/-- `#release`: the first waiter takes the worker, or it is idle. -/
def release (s : State) (worker : Nat) : State :=
  if worker ∉ s.workers then s
  else match s.waiters with
    | run :: waiters => { s with waiters, runs := s.runs.set run (.acquired worker) }
    | [] => { s with idleWorkers := s.idleWorkers ++ [worker] }

def spawn (s : State) (workerId : Nat) : State :=
  let worker := s.threads.length
  { s with
    threads := s.threads ++ [Thread.fresh workerId]
    workers := s.workers ++ [worker] }.release worker

def rejectAllWaiters (s : State) (error : RunError) : State :=
  { s with
    waiters := []
    runs := s.waiters.foldl (fun runs run => runs.set run (.settled (.rejected error))) s.runs }

/-- `run`, up to the await of `#acquire`. -/
def run (s : State) : State :=
  if s.terminated then { s with runs := s.runs ++ [.settled (.rejected .terminated)] }
  else match s.idleWorkers.dropWhile (· ∉ s.workers) with
    | worker :: idleWorkers => { s with idleWorkers, runs := s.runs ++ [.acquired worker] }
    | [] =>
      let s := { s with idleWorkers := [] }
      if s.workers = [] then { s with runs := s.runs ++ [.settled (.rejected .allDied)] }
      else { s with waiters := s.waiters ++ [s.runs.length], runs := s.runs ++ [.waiting] }

/-- `run` posts its payload. -/
def post (s : State) (run worker : Nat) : State :=
  { s with
    runs := s.runs.set run (.inFlight worker)
    threads := s.threads.modify worker fun t => { t with posted := t.posted ++ [run] } }

/-- `worker.postMessage` throws. The listeners that `run` leaves on the worker settle nothing any
more. -/
def postThrows (s : State) (run worker : Nat) : State :=
  { s with runs := s.runs.set run (.releasing worker (.rejected .dataClone)) }

/-- The listeners that `run` left on a worker hear one of its events. -/
def settleOn (s : State) (worker : Nat) (result : RunResult) : State :=
  { s with runs := s.runs.map fun
    | .inFlight w => if w = worker then .releasing worker result else .inFlight w
    | r => r }

/-- The `finally` block of `run`. -/
def finish (s : State) (run worker : Nat) (result : RunResult) : State :=
  { s with runs := s.runs.set run (.settled result) }.release worker

/-- The thread sends its next message. -/
def answer (s : State) (worker : Nat) (t : Thread) (run : Nat) : State :=
  { s with threads := s.threads.set worker { t with
      answered := t.answered + 1
      outbox := t.outbox ++ [⟨run, t.posted⟩] } }

/-- A message of the worker arrives. -/
def message (s : State) (worker : Nat) (t : Thread) (m : Message) (rest : List Message) : State :=
  { s with threads := s.threads.set worker { t with outbox := rest } }.settleOn worker (.resolved m)

/-- The pool's `'exit'` listener, after the worker is gone from it. -/
def respawn (c : Config) (s : State) (workerId : Nat) : State :=
  if s.terminated then s
  else if s.respawns workerId < c.maxRespawns then
    { s with
      respawnCounts := s.respawnCounts.set workerId (s.respawns workerId + 1) }.spawn workerId
  else if s.workers = [] then s.rejectAllWaiters .allDied
  else s

def exit (c : Config) (s : State) (worker : Nat) (t : Thread) : State :=
  { s.settleOn worker (.rejected .exited) with
    threads := s.threads.set worker { t with live := false }
    workers := s.workers.erase worker
    idleWorkers := s.idleWorkers.erase worker }.respawn c t.workerId

/-- `terminate`, up to its await. -/
def terminate (s : State) : State :=
  { s with terminated := true, terminating := some s.workers }.rejectAllWaiters .terminated

/-- `terminate`, when every worker has terminated or failed to. -/
def terminateResumes (s : State) : State :=
  { s with terminating := none, workers := [], idleWorkers := [] }

/-- No continuation is pending. -/
def quiet (s : State) : Bool :=
  s.runs.all fun
    | .acquired _ | .releasing _ _ => false
    | _ => true

end State

def empty : State := ⟨[], [], [], [], .empty, false, none, []⟩

/-- The constructor spawns every worker. -/
def start (c : Config) : State := (List.range c.workerCount).foldl State.spawn empty

inductive Event where
  | run
  /-- the call posts its payload, or ends -/
  | resumes (run : Nat)
  /-- the call posts its payload, which cannot be cloned -/
  | postThrows (run : Nat)
  /-- the thread sends the message for its next payload -/
  | answers (worker : Nat)
  | message (worker : Nat)
  | error (worker : Nat)
  /-- whatever its code -/
  | exit (worker : Nat)
  | terminate
  /-- `worker.terminate()` rejects -/
  | terminateFails (worker : Nat)
  | terminateResumes
  deriving DecidableEq

/-- What a worker emits. -/
def Event.emitted : Event → Bool
  | .message _ | .error _ | .exit _ => true
  | _ => false

def step (c : Config) (s : State) (event : Event) : Option State :=
  if event.emitted ∧ s.quiet = false then none else
  match event with
  | .run => some s.run
  | .resumes run =>
    match s.runs[run]? with
    | some (.acquired worker) => some (s.post run worker)
    | some (.releasing worker result) => some (s.finish run worker result)
    | _ => none
  | .postThrows run =>
    match s.runs[run]? with
    | some (.acquired worker) => some (s.postThrows run worker)
    | _ => none
  | .answers worker =>
    match s.threads[worker]? with
    | some t =>
      match t.posted[t.answered]? with
      | some run => if t.live then some (s.answer worker t run) else none
      | none => none
    | none => none
  | .message worker =>
    match s.threads[worker]? with
    | some ⟨workerId, true, posted, answered, m :: rest⟩ =>
      some (s.message worker ⟨workerId, true, posted, answered, m :: rest⟩ m rest)
    | _ => none
  | .error worker => if s.live worker then some (s.settleOn worker (.rejected .worker)) else none
  | .exit worker =>
    match s.threads[worker]? with
    | some t => if t.live then some (s.exit c worker t) else none
    | none => none
  | .terminate => if s.terminated then none else some s.terminate
  | .terminateFails worker =>
    match s.terminating with
    | some workers => some { s with terminating := some (workers.erase worker) }
    | none => none
  | .terminateResumes =>
    match s.terminating with
    | some workers =>
      if workers.all (fun worker => !s.live worker) then some s.terminateResumes else none
    | none => none

/-- What a step can be, with the code it runs. -/
inductive Steps (c : Config) (s : State) : Event → State → Prop
  | run : Steps c s .run s.run
  | posts {run worker} (hrun : s.runs[run]? = some (.acquired worker)) :
      Steps c s (.resumes run) (s.post run worker)
  | postThrows {run worker} (hrun : s.runs[run]? = some (.acquired worker)) :
      Steps c s (.postThrows run) (s.postThrows run worker)
  | finishes {run worker result} (hrun : s.runs[run]? = some (.releasing worker result)) :
      Steps c s (.resumes run) (s.finish run worker result)
  | answers {worker t run} (ht : s.threads[worker]? = some t) (hlive : t.live)
      (hrun : t.posted[t.answered]? = some run) : Steps c s (.answers worker) (s.answer worker t run)
  | message {worker t m rest} (hquiet : s.quiet) (ht : s.threads[worker]? = some t)
      (hlive : t.live) (hm : t.outbox = m :: rest) :
      Steps c s (.message worker) (s.message worker t m rest)
  | error {worker} (hquiet : s.quiet) (hlive : s.live worker) :
      Steps c s (.error worker) (s.settleOn worker (.rejected .worker))
  | exit {worker t} (hquiet : s.quiet) (ht : s.threads[worker]? = some t) (hlive : t.live) :
      Steps c s (.exit worker) (s.exit c worker t)
  | terminate (honce : s.terminated = false) : Steps c s .terminate s.terminate
  | terminateFails {worker workers} (hterminating : s.terminating = some workers) :
      Steps c s (.terminateFails worker) { s with terminating := some (workers.erase worker) }
  | terminateResumes {workers} (hterminating : s.terminating = some workers)
      (hgone : ∀ worker ∈ workers, s.live worker = false) :
      Steps c s .terminateResumes s.terminateResumes

theorem step_cases {c : Config} {s s' : State} {event : Event} (hs : step c s event = some s') :
    Steps c s event s' := by
  unfold step at hs
  split at hs
  · cases hs
  · rename_i hguard
    have hquiet : event.emitted = true → s.quiet = true := fun he => by simpa [he] using hguard
    clear hguard
    split at hs
    · cases hs; exact .run
    · split at hs
      · cases hs; exact .posts ‹_›
      · cases hs; exact .finishes ‹_›
      · cases hs
    · split at hs
      · cases hs; exact .postThrows ‹_›
      · cases hs
    · split at hs
      · split at hs
        · split at hs
          · cases hs; exact .answers ‹_› ‹_› ‹_›
          · cases hs
        · cases hs
      · cases hs
    · split at hs
      · cases hs; exact .message (hquiet rfl) ‹_› rfl rfl
      · cases hs
    · split at hs
      · cases hs; exact .error (hquiet rfl) ‹_›
      · cases hs
    · split at hs
      · split at hs
        · cases hs; exact .exit (hquiet rfl) ‹_› ‹_›
        · cases hs
      · cases hs
    · split at hs
      · cases hs
      · next h => cases hs; exact .terminate (by simpa using h)
    · split at hs
      · cases hs; exact .terminateFails ‹_›
      · cases hs
    · split at hs
      · split at hs
        · next h => cases hs; exact .terminateResumes ‹_› (by simpa using h)
        · cases hs
      · cases hs

end WorkerPool
end RabbitMQ
