import MqttBroker.Settings
/-! Settings as the text of a file that sets every one of them. -/

namespace MqttBroker

namespace Settings

/-- A string in quotes. -/
def quoted (text : String) : String :=
  let plain (c : Char) : List Char := if c = '"' || c = '\\' then ['\\', c] else [c]
  "\"" ++ String.ofList (text.toList.flatMap plain) ++ "\""

/-- A line that sets a key. -/
def assignment (key value : String) : String := key ++ " = " ++ value

def endpointLines (e : Endpoint) : List String :=
  [assignment "host" (quoted e.host), assignment "port" (toString e.port)]
    ++ (e.webSocketPort.map fun port => assignment "websocket_port" (toString port)).toList

def limitLines (l : Limits) : List String :=
  [assignment "connect_timeout_secs" (toString l.connectTimeoutSecs),
    assignment "max_in_flight" (toString l.maxInFlight),
    assignment "max_receive" (toString l.maxReceive),
    assignment "max_unflushed_bytes" (toString l.maxUnflushedBytes),
    assignment "max_packet_size" (toString l.maxPacketSize),
    assignment "outgoing_queue_capacity" (toString l.outboxCapacity)]

def levelLines (e : EnabledLevels) : List String :=
  [assignment "v3_1" (toString e.v31), assignment "v3_1_1" (toString e.v311),
    assignment "v5" (toString e.v5)]

/-- The lines of a file, section by section. -/
def lines (s : Settings) : List String :=
  ["[server]"] ++ endpointLines s.endpoint
    ++ ["", "[broker]"] ++ limitLines s.limits
    ++ ["", "[broker.protocols]"] ++ levelLines s.limits.levels
    ++ ["", "[logging]", assignment "level" (quoted s.logLevel)]

end Settings

end MqttBroker
