import RoomSync.CommandLine

namespace RoomSync

def ServerConfig.report (config : ServerConfig) : List String :=
  let schema := config.room.schema
  [s!"listen on {config.bindAddress}",
    s!"sweep every {config.tickInterval} ms",
    s!"buffer {config.outboundBuffer} frames for each connection",
    s!"allow {config.room.maxSessions} sessions in a room",
    s!"accept schema versions {schema.minVersion} to {schema.version}"] ++
    schema.types.values.map fun t => s!"accept {t.toArgument}"

end RoomSync

open RoomSync

def main (arguments : List String) : IO UInt32 := do
  let environmentBind ← IO.getEnv "TANDEM_BIND"
  match CommandLine.read arguments with
  | .error (.usage error) =>
    IO.eprint error.report
    return 2
  | .error interruption =>
    for line in CommandLine.printed environmentBind interruption do IO.println line
    return 0
  | .ok settings =>
    IO.eprintln settings.greeting
    for line in (settings.serverConfig environmentBind).report do IO.println line
    return 0
