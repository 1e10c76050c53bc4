import Kyber.Api.Store

/-!
# Calls of the API (`internal/rpc`)

A handler is a program of calls to the store that ends in a response or a gRPC
status. What it takes from elsewhere is an argument: generated ids, signed tokens
and the clock. The user of an authenticated call is read by the interceptor in
front of the handler, `authenticated`; where nothing depends on when that was, the
user is an argument as well.
-/

namespace Kyber.Api

open Kyber.Lib

/-- The gRPC status codes in use. -/
inductive Code
  | invalidArgument
  | notFound
  | alreadyExists
  | permissionDenied
  | resourceExhausted
  | internal
  | unauthenticated
  deriving DecidableEq, Repr

inductive Failure
  | status (code : Code) (message : String)
  /-- a nil pointer is dereferenced -/
  | panic
  deriving DecidableEq, Repr

inductive Response
  /-- `JoinTokenResponse` -/
  | joinToken (token : String)
  /-- `ConsumeJoinTokenResponse` -/
  | player (id name : String)
  /-- `RegisterServerResponse`, of which the id and the proxy token -/
  | server (id proxyToken : String)
  /-- `CanJoinServerResponse` -/
  | canJoin (canJoin : Bool) (reason : Option String)
  /-- `ServerList` -/
  | servers (servers : List ServerModel)
  /-- `Empty` -/
  | empty
  deriving DecidableEq, Repr

abbrev Reply := Except Failure Response

abbrev Handler := Prog Op Ans Reply

def refuse (code : Code) (message : String) : Handler := .ret (.error (.status code message))

/-- A call, and the status that the handler returns when the database fails. -/
def query (op : Op) (code : Code) (message : String) (k : op.Result → Handler) : Handler :=
  .call op fun
    | .error _ => refuse code message
    | .ok result => k result

/-! ## The clock -/

/-- `time.Time`: nanoseconds since 1970. -/
abbrev Instant := Int

/-- The date that the database keeps for an instant, in whole milliseconds. -/
def dateOf (t : Instant) : Time := t / 1000000

/-- `time.Duration(d) * time.Second`. The conversion and the product are those of
64-bit numbers. -/
def seconds (d : UInt64) : Int64 := d.toInt64 * 1000000000

/-- `now.Add(d)`. -/
def Instant.add (now : Instant) (d : Int64) : Instant := now + d.toInt

/-! ## Authentication -/

/-- `NewAuthInterceptor`, for a call with a token. -/
def authenticated (token : String) (handler : UserModel → Handler) : Handler :=
  query (.userByToken token) .internal "Failed to get user by token" fun
    | none => refuse .unauthenticated "Invalid token"
    | some user => handler user

end Kyber.Api
