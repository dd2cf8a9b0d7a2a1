import MqttBroker.Configuration.Environment
import MqttBroker.Configuration.Json
import MqttBroker.Configuration.Layer
import MqttBroker.Configuration.Toml
import MqttBroker.Settings
/-!
Settings from their sources: a default file, a file the operator names, and environment variables,
later ones over earlier ones, and all of them over the built-in defaults.
-/

namespace MqttBroker

inductive FileFormat where
  | json
  | toml
deriving DecidableEq

namespace FileFormat

/-- What follows the last dot of a name, if something stands before that dot. -/
def extension (name : List Char) : List Char :=
  let (last, before) := name.reverse.span (· != '.')
  if before.length < 2 then [] else last.reverse

/-- The format of a file by the extension of the last part of its path. -/
def ofName? (path : String) : Option FileFormat :=
  match String.ofList (extension (path.toList.reverse.takeWhile (· != '/')).reverse) with
  | "json" => some json
  | "toml" => some toml
  | _ => none

/-- The entries of a file. A byte order mark at its start is passed over. -/
def parse? (format : FileFormat) (text : String) : Option ConfigValue.Entries :=
  let text := if text.toList.head? = some '\uFEFF' then String.ofList text.toList.tail else text
  match format with
  | json => JsonFile.parse? text
  | toml => TomlFile.parse? text

end FileFormat

inductive ConfigError where
  | missingFile (name : String)
  | unknownFormat (name : String)
  | malformedFile (name : String)
  /-- A setting whose value is of no use for it. -/
  | unsuitable (key : String)
deriving DecidableEq

def ConfigError.message : ConfigError → String
  | missingFile name => "configuration file " ++ name ++ " not found"
  | unknownFormat name => "configuration file " ++ name ++ " is not of a known format"
  | malformedFile name => "configuration file " ++ name ++ " is malformed"
  | unsuitable key => "invalid value for " ++ key

/-- The files there are, by name, with their texts. -/
abbrev ConfigFiles := List (String × String)

namespace ConfigFiles

/-- The names under which a file is looked for. -/
def candidates (name : String) : List String := [name, name ++ ".json", name ++ ".toml"]

/-- The first file there is among the candidates for a name. -/
def find? (files : ConfigFiles) (name : String) : Option (String × String) :=
  (candidates name).findSome? fun candidate =>
    (files.lookup candidate).map fun text => (candidate, text)

/-- The entries of a file with that name and text. -/
def entriesOf (name text : String) : Except ConfigError ConfigValue.Entries :=
  match FileFormat.ofName? name with
  | none => .error (.unknownFormat name)
  | some format => match format.parse? text with
    | some entries => .ok entries
    | none => .error (.malformedFile name)

end ConfigFiles

namespace Settings

/-! ### Reading values -/

def suitable {α : Type} (key : String) : Option α → Except ConfigError α
  | some a => .ok a
  | none => .error (.unsuitable key)

def parts (key : String) (keys : List String) (v : ConfigValue) :
    Except ConfigError (List ConfigValue) :=
  suitable key (v.parts? keys)

/-- Reads a value, if there is one. -/
def optional {α : Type} (key : String) (f : ConfigValue → Option α) (v : ConfigValue) :
    Except ConfigError (Option α) :=
  if v.isNothing then .ok none else some <$> suitable key (f v)

/-- Reads a value, or takes the default. -/
def orDefault {α : Type} (key : String) (default : α) (f : ConfigValue → Option α)
    (v : ConfigValue) : Except ConfigError α := do
  return (← optional key f v).getD default

def word? (v : ConfigValue) : Option UInt16 :=
  v.toUnsigned?.bind fun n => if n < 65536 then some (UInt16.ofNat n) else none

def endpointKeys : List String := ["host", "port", "websocket_port"]

def levelKeys : List String := ["v3_1", "v3_1_1", "v5"]

def limitKeys : List String :=
  ["connect_timeout_secs", "max_in_flight", "max_receive", "max_unflushed_bytes", "max_packet_size",
    "outgoing_queue_capacity", "protocols"]

def readEndpoint (d : Endpoint) (v : ConfigValue) : Except ConfigError Endpoint := do
  match ← parts "server" endpointKeys v with
  | [host, port, webSocketPort] =>
    return { host := ← orDefault "server.host" d.host ConfigValue.toText? host
             port := ← orDefault "server.port" d.port word? port
             webSocketPort :=
              (← optional "server.websocket_port" word? webSocketPort).or d.webSocketPort }
  | _ => throw (.unsuitable "server")

def readLevels (d : EnabledLevels) (v : ConfigValue) : Except ConfigError EnabledLevels := do
  match ← parts "broker.protocols" levelKeys v with
  | [v31, v311, v5] =>
    return { v31 := ← orDefault "broker.protocols.v3_1" d.v31 ConfigValue.toBool? v31
             v311 := ← orDefault "broker.protocols.v3_1_1" d.v311 ConfigValue.toBool? v311
             v5 := ← orDefault "broker.protocols.v5" d.v5 ConfigValue.toBool? v5 }
  | _ => throw (.unsuitable "broker.protocols")

def readLimits (d : Limits) (v : ConfigValue) : Except ConfigError Limits := do
  let count (key : String) (default : Nat) (v : ConfigValue) :=
    orDefault ("broker." ++ key) default ConfigValue.toUnsigned? v
  match ← parts "broker" limitKeys v with
  | [timeout, inFlight, receive, unflushed, packetSize, capacity, levels] =>
    return { connectTimeoutSecs := ← count "connect_timeout_secs" d.connectTimeoutSecs timeout
             maxInFlight := ← orDefault "broker.max_in_flight" d.maxInFlight word? inFlight
             maxReceive := ← orDefault "broker.max_receive" d.maxReceive word? receive
             maxUnflushedBytes := ← count "max_unflushed_bytes" d.maxUnflushedBytes unflushed
             maxPacketSize := ← count "max_packet_size" d.maxPacketSize packetSize
             outboxCapacity := ← count "outgoing_queue_capacity" d.outboxCapacity capacity
             levels := ← readLevels d.levels levels }
  | _ => throw (.unsuitable "broker")

def readLogLevel (d : String) (v : ConfigValue) : Except ConfigError String := do
  match ← parts "logging" ["level"] v with
  | [level] => orDefault "logging.level" d ConfigValue.toText? level
  | _ => throw (.unsuitable "logging")

/-- The settings that a table of sections holds; what it does not mention keeps its default, and
keys it does not know are passed over. -/
def ofValue (v : ConfigValue) : Except ConfigError Settings := do
  let d : Settings := {}
  return { endpoint := ← readEndpoint d.endpoint (ConfigValue.find v.entries "server")
           limits := ← readLimits d.limits (ConfigValue.find v.entries "broker")
           logLevel := ← readLogLevel d.logLevel (ConfigValue.find v.entries "logging") }

/-- The names of all settings, as paths from the root. -/
def paths : List (List String) :=
  endpointKeys.map (["server", ·])
    ++ (limitKeys.filter (· != "protocols")).map (["broker", ·])
    ++ levelKeys.map (["broker", "protocols", ·])
    ++ [["logging", "level"]]

/-! ### Loading -/

/-- The name that the default file is looked for under. -/
def defaultFile : String := "config/default"

/-- The settings that the sources add up to. The default file may be absent, a named file may not.
-/
def load (pre : String) (files : ConfigFiles) (named : Option String)
    (vars : List (String × String)) : Except ConfigError Settings := do
  let base ← match files.find? defaultFile with
    | some (name, text) => ConfigFiles.entriesOf name text
    | none => pure []
  let extra ← match named with
    | none => pure []
    | some name => match files.find? name with
      | some (name, text) => ConfigFiles.entriesOf name text
      | none => throw (.missingFile name)
  let sources := [base, extra, Environment.entries pre vars]
  ofValue (sources.foldl ConfigValue.layer (.table []))

end Settings

end MqttBroker
