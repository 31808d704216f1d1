import LoginSession.Host.Loading
import LoginSession.Job.Basic

namespace LoginSession.Host

def nulFault : SystemFault := .message .invalidInput "nul byte found in provided data"

def noWordsFault : SystemFault := .message .invalidInput "empty argument vector"

/-- A start that fails leaves the machine as it was. -/
def spawn (h : Host) (owner : Nat) (words : List String) : Except SystemFault (Host × Child) :=
  match h.process? owner, words with
  | _, [] => .error noWordsFault
  | none, _ => .error (.number .noProcess)
  | some parent, words =>
    if words.any fun w => w.toList.contains '\x00' then .error nulFault
    else
      let (next, output) := h.makePipe true
      let (next, diagnostics) := next.makePipe true
      let (next, pid) := next.add {
        parent := owner
        group := next.number
        descriptors := [(0, .null), (1, .writer output), (2, .writer diagnostics)]
        cwd := parent.cwd
        environment := parent.environment
        image := .ended (.exited 0) }
      match next.load pid parent.environment (parent.environment.lookup "PATH".toList)
          (words.map Octets.ofString) with
      | .error e => .error (.number e)
      | .ok next => .ok (next, ⟨pid, output, diagnostics⟩)

end LoginSession.Host
