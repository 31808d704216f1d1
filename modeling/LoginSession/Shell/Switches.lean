import LoginSession.Host.Octets

namespace LoginSession.Shell

open Host (Octets)

inductive Switch where
  | exitOnFailure
  | noGlob
  | ignoreEnd
  | interactive
  | monitor
  | noExecution
  | standardInput
  | trace
  | verbose
  | viEditing
  | emacsEditing
  | noClobber
  | exportAll
  | notify
  | noUnset
  | privileged
  | noLog
  | debug
  deriving DecidableEq, Repr

namespace Switch

def all : List Switch :=
  [exitOnFailure, noGlob, ignoreEnd, interactive, monitor, noExecution, standardInput, trace,
   verbose, viEditing, emacsEditing, noClobber, exportAll, notify, noUnset, privileged, noLog,
   debug]

def name : Switch → String
  | exitOnFailure => "errexit"
  | noGlob => "noglob"
  | ignoreEnd => "ignoreeof"
  | interactive => "interactive"
  | monitor => "monitor"
  | noExecution => "noexec"
  | standardInput => "stdin"
  | trace => "xtrace"
  | verbose => "verbose"
  | viEditing => "vi"
  | emacsEditing => "emacs"
  | noClobber => "noclobber"
  | exportAll => "allexport"
  | notify => "notify"
  | noUnset => "nounset"
  | privileged => "privileged"
  | noLog => "nolog"
  | debug => "debug"

def letter? : Switch → Option Char
  | exitOnFailure => some 'e'
  | noGlob => some 'f'
  | ignoreEnd => some 'I'
  | interactive => some 'i'
  | monitor => some 'm'
  | noExecution => some 'n'
  | standardInput => some 's'
  | trace => some 'x'
  | verbose => some 'v'
  | viEditing => some 'V'
  | emacsEditing => some 'E'
  | noClobber => some 'C'
  | exportAll => some 'a'
  | notify => some 'b'
  | noUnset => some 'u'
  | privileged => some 'p'
  | noLog | debug => none

def ofLetter? (c : Char) : Option Switch := all.find? fun s => s.letter? = some c

def ofName? (name : Octets) : Option Switch := all.find? fun s => s.name.toList = name

end Switch

abbrev Switches := List Switch

namespace Switches

def isOn (on : Switches) (s : Switch) : Bool := on.contains s

def turn (on : Switches) (s : Switch) (value : Bool) : Switches :=
  if value then s :: on.filter (· ≠ s) else on.filter (· ≠ s)

/-- By its letter, each way of editing switches the other one off. -/
def turnByLetter (on : Switches) (s : Switch) (value : Bool) : Switches :=
  match s, value with
  | .viEditing, true => (on.turn .emacsEditing false).turn s true
  | .emacsEditing, true => (on.turn .viEditing false).turn s true
  | _, _ => on.turn s value

/-- The letters of the switches that are on, the last ones of the list first. -/
def letters (on : Switches) : Octets :=
  ((Switch.all.filter on.isOn).filterMap Switch.letter?).reverse

def table (on : Switches) : Octets :=
  "Current option settings\n".toList ++ Switch.all.flatMap fun s =>
    let name := s.name.toList
    name ++ List.replicate (16 - name.length) ' ' ++
      (if on.isOn s then "on\n" else "off\n").toList

def commands (on : Switches) : Octets :=
  Switch.all.flatMap fun s =>
    (if on.isOn s then "set -o " else "set +o ").toList ++ s.name.toList ++ ['\n']

end Switches

end LoginSession.Shell
