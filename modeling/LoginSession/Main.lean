import LoginSession.Supervisor.Collector

namespace LoginSession

/-- What a log that nobody named is called after: the moment at which the clock starts. -/
def startOfClock : String := "19700101_000000"

def callerEnvironment : IO Host.Environment := do
  let given ← [Config.helperVariable, "TMPDIR"].filterMapM fun name => do
    return (← IO.getEnv name).map fun value => (name.toList, Host.Octets.ofString value)
  return Host.standardEnvironment ++ given

end LoginSession

open LoginSession in
def main (arguments : List String) : IO UInt32 := do
  let result :=
    Collector.run Host.standardFiles (← callerEnvironment) startOfClock arguments
  for line in result.lines do
    IO.eprintln line
  IO.print result.output
  return UInt32.ofNat result.exit.code.toNat
