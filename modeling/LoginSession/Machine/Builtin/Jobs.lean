import LoginSession.Machine.Reply

namespace LoginSession.Shell

open Host (Octets)

def endText : Exit → Octets
  | .exited code =>
    if code = 0 then "Done".toList else "Done(".toList ++ Octets.ofInt code ++ [')']
  | .signaled signal => (Signal.mk signal.toNat).announcement.toList

def deathText : Exit → Octets
  | .exited _ => []
  | .signaled signal =>
    if signal = 2 ∨ signal = 13 then []
    else (Signal.mk signal.toNat).announcement.toList ++ ['\n']

def Reply.collect (r : Reply) : Reply :=
  let (host, ended) := r.host.reapChildren r.pid Host.latency
  { r with
    host
    state.jobs := ended.foldl (fun jobs (process, how) => jobs.note process how) r.state.jobs }

namespace Builtin

inductive Detail where
  | brief
  | numbers
  | leader
  deriving DecidableEq

def padded (text : Octets) : Octets := text ++ List.replicate (max 1 (33 - text.length)) ' '

def jobStatus (job : Job) : Octets :=
  if job.isDone then ((job.last?.bind (·.2)).map endText).getD [] else "Running".toList

/-- The lines for a job: the current one is marked by a plus, the one before it by a minus. -/
def jobLines (jobs : Jobs) (detail : Detail) (place : Nat) (job : Job) : Octets :=
  let mark := if jobs.order.head? = some place then '+'
    else if jobs.order[1]? = some place then '-'
    else ' '
  let lead := '[' :: Octets.ofNat (place + 1) ++ [']', ' ', mark, ' ']
  let numbers := job.processes.map fun (n, _) => Octets.ofNat n
  match detail with
  | .leader => numbers.headD [] ++ ['\n']
  | .brief =>
    padded (lead ++ jobStatus job) ++ (numbers.drop 1).flatMap (fun _ => " | ".toList) ++ ['\n']
  | .numbers =>
    let further := (numbers.drop 1).flatMap fun n =>
      " |\n".toList ++ padded (List.replicate lead.length ' ' ++ n ++ [' '])
    padded (lead ++ numbers.headD [] ++ ' ' :: jobStatus job) ++ further ++ ['\n']

def showJob (detail : Detail) (r : Reply) (place : Nat) (job : Job) : Reply :=
  let r := r.print (jobLines r.state.jobs detail place job)
  if job.isDone && detail ≠ .leader then { r with state.jobs := r.state.jobs.remove place } else r

def showNamed (detail : Detail) (r : Reply) (word : Octets) : Reply :=
  match r.state.jobs.find (some word) with
  | .ok (place, job) => showJob detail r place job
  | .error fault => r.giveUp fault

def jobs : Builtin :=
  withOptions "lp" fun r options words =>
    let detail : Detail := match options.getLast? with
      | some 'l' => .numbers
      | some _ => .leader
      | none => .brief
    let r := r.collect
    if words.isEmpty then
      r.state.jobs.listed.foldl (fun r (place, job) => showJob detail r place job) r
    else r.forWords (showNamed detail) words

/-- To have a job in the foreground takes a terminal, which no shell here has. -/
def bringForward : Builtin :=
  withoutOptions fun r words =>
    match r.state.jobs.find words.head? with
    | .error fault => r.giveUp fault
    | .ok _ =>
      r.giveUp ("job ".toList ++ words.headD "(null)".toList ++
        " not created under job control".toList)

def wait : Builtin :=
  withoutOptions fun r words =>
    { r with frames := [if words.isEmpty then .waitAll else .wait words 127] }

end Builtin

end LoginSession.Shell
