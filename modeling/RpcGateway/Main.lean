import RpcGateway.Startup
import RpcGateway.Transport.Channel

/-!
# The gateway program

Takes the configuration from the environment and from the file that it names, and starts a gateway.

**Listening.**  The program has no sockets at its disposal.  A start therefore ends when the listen
address is to be bound, unless something else is in the way before.
-/

namespace RpcGateway
namespace Program

/-- The file with the environment block of this process. -/
def environmentFile : String := "/proc/self/environ"

/-- Why no address can be bound. -/
def noSockets : String := "Operation not supported (os error 95)"

/-- The contents of a file, if it can be read. -/
def contents? (path : String) : IO (Option (List UInt8)) := do
  try
    let bytes ← IO.FS.readBinFile path
    return some bytes.toList
  catch _ => return none

def filesAt (paths : List String) : IO Files :=
  paths.filterMapM fun path => do
    let bytes? ← contents? path
    return bytes?.map fun bytes => (path, bytes)

/-- Starts a gateway and reports why it does not serve. -/
def start : IO UInt32 := do
  let block ← contents? environmentFile
  let environment := Environment.ofBlock (block.getD [])
  let files ← filesAt (FileFormat.candidatesOf (environment.lookup Startup.pathVariable))
  let dial (_ : String) : Channel Unit := PeerChannel.channel Peer.silent
  match Startup.run (Startup.sources environment files) dial (some noSockets) with
  | .ok _ => return 0
  | .error refusal =>
      IO.eprintln refusal.message
      return 1

end Program
end RpcGateway

def main : IO UInt32 :=
  RpcGateway.Program.start
