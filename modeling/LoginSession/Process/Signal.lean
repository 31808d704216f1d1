namespace LoginSession

structure Signal where
  number : Nat
  deriving DecidableEq, Repr

namespace Signal

def interrupt : Signal := ⟨2⟩
def quit : Signal := ⟨3⟩
def kill : Signal := ⟨9⟩
def pipe : Signal := ⟨13⟩
def terminate : Signal := ⟨15⟩
def child : Signal := ⟨17⟩
def resume : Signal := ⟨18⟩
def stop : Signal := ⟨19⟩

def table : List (Nat × String × String) :=
  [(1, "HUP", "Hangup"),
   (2, "INT", "Interrupt"),
   (3, "QUIT", "Quit"),
   (4, "ILL", "Illegal instruction"),
   (5, "TRAP", "Trace/breakpoint trap"),
   (6, "ABRT", "Aborted"),
   (7, "BUS", "Bus error"),
   (8, "FPE", "Floating point exception"),
   (9, "KILL", "Killed"),
   (10, "USR1", "User defined signal 1"),
   (11, "SEGV", "Segmentation fault"),
   (12, "USR2", "User defined signal 2"),
   (13, "PIPE", "Broken pipe"),
   (14, "ALRM", "Alarm clock"),
   (15, "TERM", "Terminated"),
   (16, "STKFLT", "Stack fault"),
   (17, "CHLD", "Child exited"),
   (18, "CONT", "Continued"),
   (19, "STOP", "Stopped (signal)"),
   (20, "TSTP", "Stopped"),
   (21, "TTIN", "Stopped (tty input)"),
   (22, "TTOU", "Stopped (tty output)"),
   (23, "URG", "Urgent I/O condition"),
   (24, "XCPU", "CPU time limit exceeded"),
   (25, "XFSZ", "File size limit exceeded"),
   (26, "VTALRM", "Virtual timer expired"),
   (27, "PROF", "Profiling timer expired"),
   (28, "WINCH", "Window changed"),
   (29, "IO", "I/O possible"),
   (30, "PWR", "Power failure"),
   (31, "SYS", "Bad system call")]

def ofNumber? (n : Int) : Option Signal :=
  if 1 ≤ n ∧ n ≤ 31 then some ⟨n.toNat⟩ else none

def ofName? (name : String) : Option Signal :=
  (table.find? (·.2.1 = name)).map fun entry => ⟨entry.1⟩

def announcement (s : Signal) : String :=
  match table.lookup s.number with
  | some (_, text) => text
  | none =>
    if 34 ≤ s.number ∧ s.number ≤ 64 then s!"Real-time signal {s.number - 34}"
    else s!"Unknown signal {s.number}"

inductive Disposition where
  | terminate
  | stop
  | resume
  | ignore
  deriving DecidableEq, Repr

def disposition (s : Signal) : Disposition :=
  if s.number = 17 ∨ s.number = 23 ∨ s.number = 28 then .ignore
  else if s.number = 18 then .resume
  else if 19 ≤ s.number ∧ s.number ≤ 22 then .stop
  else .terminate

/-- A process may neither catch nor ignore these. -/
def isUnstoppable (s : Signal) : Bool := s = kill || s = stop

end Signal

end LoginSession
