import Kyber.Lib.Json
import Mathlib.Logic.Function.Basic

/-!
# The proxy's signing keys (`jwks.rs`)

The proxy checks tokens with the keys that the service publishes as a JSON Web Key Set.
It fetches this now and then and keeps the keys in a cache under their ids. A refresh
holds a lock over the time of the last one, so that refreshes come one after the other.

What makes a key of a modulus and an exponent is a function of the crate `jsonwebtoken`,
`convert`, for which nothing is assumed. Times are in nanoseconds of a clock.
-/

namespace Kyber.Proxy

open Kyber.Lib

structure Jwk where
  keyType : String
  use_ : Option String
  keyId : String
  modulus : String
  exponent : String
  algorithm : Option String
  deriving DecidableEq, Repr

structure Jwks where
  keys : List Jwk
  deriving DecidableEq, Repr

/-! ## What `serde` reads -/

/-- The value of a field, if there is one. A field that is there twice is an error. -/
def field (fields : List (String × Json)) (name : String) : Option (Option Json) :=
  match fields.filter (·.1 = name) with
  | [] => some none
  | [f] => some (some f.2)
  | _ => none

/-- A `String`. -/
def readString : Json → Option String
  | .str s => some s
  | _ => none

/-- An `Option<String>`. -/
def readOptional : Json → Option (Option String)
  | .null => some none
  | .str s => some (some s)
  | _ => none

/-- A `String` that has to be there. -/
def requiredField (fields : List (String × Json)) (name : String) : Option String := do
  readString (← ← field fields name)

def optionalField (fields : List (String × Json)) (name : String) : Option (Option String) := do
  match ← field fields name with
  | none => some none
  | some value => readOptional value

/-- From an object, or from an array with the fields in their order. -/
def Jwk.deserialize : Json → Option Jwk
  | .obj fields => do
      let keyType ← requiredField fields "kty"
      let use_ ← optionalField fields "use"
      let keyId ← requiredField fields "kid"
      let modulus ← requiredField fields "n"
      let exponent ← requiredField fields "e"
      let algorithm ← optionalField fields "alg"
      return { keyType, use_, keyId, modulus, exponent, algorithm }
  | .arr [kty, use, kid, n, e, alg] => do
      return {
        keyType := ← readString kty
        use_ := ← readOptional use
        keyId := ← readString kid
        modulus := ← readString n
        exponent := ← readString e
        algorithm := ← readOptional alg }
  | _ => none

def readKeys : Json → Option Jwks
  | .arr items => (items.mapM Jwk.deserialize).map Jwks.mk
  | _ => none

def Jwks.deserialize : Json → Option Jwks
  | .obj fields => do readKeys (← ← field fields "keys")
  | .arr [keys] => readKeys keys
  | _ => none

/-! ## The cache -/

/-- What comes back from a request. A body may not be JSON. -/
inductive Reply
  | failed
  | answered (status : Nat) (body : Option Json)

inductive RefreshError
  | request
  | status (status : Nat)
  | json
  deriving DecidableEq, Repr

structure JwksManager (κ : Type) where
  /-- the keys, with the times at which they were fetched -/
  keys : String → Option (κ × Nat)
  lastFetch : Option Nat

namespace JwksManager

variable {κ : Type}

def new : JwksManager κ where
  keys := fun _ => none
  lastFetch := none

def getKey (m : JwksManager κ) (kid : String) : Except String κ :=
  match m.keys kid with
  | some entry => .ok entry.1
  | none =>
      match m.keys kid with
      | some entry => .ok entry.1
      | none => .error s!"Key with kid '{kid}' not found in JWKS"

variable (convert : String → String → Option κ)

def jwkToDecodingKey (jwk : Jwk) : Option κ := convert jwk.modulus jwk.exponent

/-- The loop of `refresh_jwks` for one key. -/
def insertKey (now : Nat) (keys : String → Option (κ × Nat)) (jwk : Jwk) :
    String → Option (κ × Nat) :=
  if jwk.keyType = "RSA" then
    match jwkToDecodingKey convert jwk with
    | some key => Function.update keys jwk.keyId (some (key, now))
    | none => keys
  else keys

def RateLimited (m : JwksManager κ) (now : Nat) : Prop :=
  ∃ last ∈ m.lastFetch, now - last < 60 * 1000000000

instance (m : JwksManager κ) (now : Nat) : Decidable (m.RateLimited now) :=
  inferInstanceAs (Decidable (∃ last ∈ m.lastFetch, _))

/-- The keys that come with a reply. -/
def fetch : Reply → Except RefreshError Jwks
  | .failed => .error .request
  | .answered status body =>
      if status < 200 ∨ 300 ≤ status then .error (.status status)
      else
        match body.bind Jwks.deserialize with
        | none => .error .json
        | some jwks => .ok jwks

def refreshJwks (m : JwksManager κ) (now : Nat) (reply : Reply) :
    JwksManager κ × Except RefreshError Unit :=
  if m.RateLimited now then (m, .ok ())
  else
    match fetch reply with
    | .error e => (m, .error e)
    | .ok jwks =>
        let currentKids := jwks.keys.map (·.keyId)
        let keys := jwks.keys.foldl (insertKey convert now) m.keys
        ({ keys := fun kid => if kid ∈ currentKids then keys kid else none
           lastFetch := some now }, .ok ())

end JwksManager

/-- The proxy's manager, with the keys of the last response that could be parsed. -/
structure KeyHistory (κ : Type) where
  manager : JwksManager κ := .new
  response : List Jwk := []

/-- A call of `refresh_jwks`. -/
structure RefreshCall where
  now : Nat
  reply : Reply

/-- The keys that a call parses. -/
def RefreshCall.parsed {κ : Type} (call : RefreshCall) (m : JwksManager κ) : Option (List Jwk) :=
  if m.RateLimited call.now then none
  else (JwksManager.fetch call.reply).toOption.map (·.keys)

def KeyHistory.step {κ : Type} (convert : String → String → Option κ) (h : KeyHistory κ)
    (call : RefreshCall) : Option (KeyHistory κ) :=
  some {
    manager := (h.manager.refreshJwks convert call.now call.reply).1
    response := (call.parsed h.manager).getD h.response }

end Kyber.Proxy
