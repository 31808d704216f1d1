import LoginSession.Job.Watch

namespace LoginSession

/-- A watcher and what its helper's streams still hold. All that a stream will ever deliver is fixed
at the start; in which chunks it comes, when it ends and what happens in between is open. -/
structure Delivery where
  watch : Watch := {}
  unread : Stream → List UInt8

namespace Delivery

def after (d : Delivery) (s : Stream) (count : Nat) (t : Stream) : List UInt8 :=
  if t = s then (d.unread t).drop count else d.unread t

def start (sent : Stream → List UInt8) : Delivery := { unread := sent }

/-- A read takes its bytes from the front of what is unread. A stream ends, or fails, once nothing
is left of it. -/
def step (d : Delivery) (e : Watch.Event) : Option Delivery :=
  match e with
  | .read s bytes =>
    if bytes <+: d.unread s then
      (d.watch.step e).map fun watch => { watch, unread := d.after s bytes.length }
    else none
  | .endOfStream s | .readFault s =>
    if d.unread s = [] then (d.watch.step e).map fun watch => { d with watch } else none
  | _ => (d.watch.step e).map fun watch => { d with watch }

def run (d : Delivery) (events : List Watch.Event) : Option Delivery := events.foldlM step d

def completions (d : Delivery) : List Watch.Event → List Exit
  | [] => []
  | e :: events =>
    match d.step e with
    | none => []
    | some next => (d.watch.sends e).toList ++ next.completions events

end Delivery

end LoginSession
