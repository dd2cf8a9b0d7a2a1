import MqttBroker.Configuration.Load
import MqttBroker.Configuration.Render
import MqttBroker.Loopback
/-!
The command line. `config` prints the settings in force. `server` runs a broker for one client,
whose bytes come in on standard input and go out on standard output, as under a socket supervisor.
Either takes the name of one more settings file.
-/

namespace MqttBroker

namespace CommandLine

inductive Command where
  | server (file : Option String)
  | config (file : Option String)

def parse? : List String → Option Command
  | ["server"] => some (.server none)
  | ["server", "--config", file] => some (.server (some file))
  | ["config"] => some (.config none)
  | ["config", "--config", file] => some (.config (some file))
  | _ => none

def usage : String := "usage: (server | config) [--config FILE]"

/-- The environment variables of the settings begin with this. -/
def variablePrefix : String := "MQTT_BROKER"

def variableName (path : List String) : String :=
  (Environment.separator.intercalate (variablePrefix :: path)).toUpper

/-- The files there are among those with these names. -/
def readFiles (names : List String) : IO ConfigFiles := do
  let found ← names.mapM fun (name : String) => do
    try
      let text ← IO.FS.readFile name
      return some (name, text)
    catch _ => return none
  return found.filterMap id

def readVariables : IO (List (String × String)) := do
  let found ← Settings.paths.mapM fun path => do
    let name := variableName path
    return (← IO.getEnv name).map fun text => (name, text)
  return found.filterMap id

def loadSettings (file : Option String) : IO (Except ConfigError Settings) := do
  let names := Settings.defaultFile :: file.toList
  let files ← readFiles (names.flatMap ConfigFiles.candidates)
  return Settings.load variablePrefix files file (← readVariables)

/-- The name of the one client. -/
def client : String := "client"

/-- How many bytes wait on either way at most. -/
def capacity : Nat := 65536

/-- Passes bytes between the client and the broker until the broker is done. A read waits until it
has all it asks for, so it asks for one byte. -/
partial def exchange (input output : IO.FS.Stream) (start : Nat) (n : Loopback) : IO Unit := do
  let n := n.advance ((← IO.monoMsNow) - start - n.clock)
  let (news, n) := n.takeNews
  for (_, bytes) in news.received do
    output.write ⟨bytes.toArray⟩
  output.flush
  if !news.ends.isEmpty then return
  let chunk ← input.read 1
  if chunk.isEmpty then exchange input output start (n.halfClose client)
  else exchange input output start (n.send client chunk.data.toList).1

def serve (settings : Settings) : IO Unit := do
  let seed := (← IO.getRandomBytes 16).foldl (fun n b => 256 * n + b.toNat) 0
  let n : Loopback := { broker := { limits := settings.limits, seed } }
  exchange (← IO.getStdin) (← IO.getStdout) (← IO.monoMsNow) (n.connect client .v311 capacity true)

def run : Command → IO UInt32
  | .config file => do
    match ← loadSettings file with
    | .ok settings => settings.lines.forM IO.println; return 0
    | .error e => IO.eprintln ("Failed to load configuration: " ++ e.message); return 1
  | .server file => do
    match ← loadSettings file with
    | .ok settings => serve settings; return 0
    | .error e => IO.eprintln ("Failed to load configuration: " ++ e.message); return 1

end CommandLine

end MqttBroker

def main (args : List String) : IO UInt32 :=
  match MqttBroker.CommandLine.parse? args with
  | some command => MqttBroker.CommandLine.run command
  | none => do
    IO.eprintln MqttBroker.CommandLine.usage
    return 2
