import RpcGateway.Call.Activity
import RpcGateway.Http.HeaderMap

/-!
# Exchanges with a remote peer

What goes over the wire in one remote call: a request with header lines and one framed message, and
an answer with header lines, at most one message, and header lines behind it.
-/

namespace RpcGateway

/-- A remote call on the wire. -/
structure WireRequest where
  /-- The path that names the method. -/
  path : String
  headers : HeaderMap
  frame : List UInt8
  deriving DecidableEq, Repr

/-- The answer to a remote call on the wire. -/
structure WireResponse where
  status : Nat := 200
  /-- The lines in front of the message. -/
  headers : HeaderMap := .empty
  message : Option (List UInt8) := none
  /-- The lines behind the message. -/
  trailers : Option HeaderMap := none
  deriving DecidableEq, Repr

/-- What comes of sending a request. -/
inductive Exchange
  | refused (reason : String)
  /-- An answer comes after a time, or never. -/
  | answered (delay : Option Nat) (response : WireResponse)
  deriving DecidableEq, Repr

/-- A remote peer: it acts on the world when a request reaches it, and answers without attending to
the clock. -/
abbrev Peer (ω : Type) := WireRequest → Activity ω Exchange

/-- A peer that answers nobody. -/
def Peer.silent {ω : Type} : Peer ω := fun _ =>
  .done (.answered none {})

/-- A message with the mark of an uncompressed one and its length in four bytes. -/
def framed (message : List UInt8) : List UInt8 :=
  let n := message.length
  0 :: UInt8.ofNat (n / 16777216) :: UInt8.ofNat (n / 65536) :: UInt8.ofNat (n / 256) ::
    UInt8.ofNat n :: message

end RpcGateway
