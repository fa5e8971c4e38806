import RpcGateway.Http.HeaderMap

/-!
# Requests and responses

An HTTP exchange as the gateway sees it, free of any transport: the body has been read in full, and
the path carries no query.
-/

namespace RpcGateway

structure Request where
  /-- Tells this request from others in logs. -/
  id : String
  /-- The verb exactly as received. -/
  method : String
  /-- The path without the query. -/
  path : String
  headers : HeaderMap := .empty
  body : List UInt8 := []
  /-- The address of the caller, if it is known. -/
  remoteAddress : Option String := none
  deriving DecidableEq, Repr

structure Response where
  status : Nat
  headers : HeaderMap := .empty
  body : List UInt8 := []
  deriving DecidableEq, Repr

/-- The values of a header that show as text, in order. -/
def Response.headerTexts (r : Response) (name : String) : List String :=
  (r.headers.getAll (Ascii.lower name)).filterMap HeaderValue.text?

end RpcGateway
