import Kyber.Api.Accounts

/-!
# The addresses of a user (`user.go`, `authentication.go`)

A user document has the addresses that the user has logged in from, each with the dates
of its first and its latest use. `Login` reads the document, puts the address of the
call into the copy, or sets the date of the one that is there, sorts the copy with the
latest use in front, cuts it off behind six and stores it. A user that is not there yet
is created with the one address.

Here is `Login` as far as it decides what is stored about the addresses. Everything else
it depends on, among it the answers of the database, is data of the call.
-/

namespace Kyber.Api

open Kyber.Lib

/-! ## `sort.Slice` -/

/-- A `less` function that a sort can rely on. -/
structure WeakOrder {α : Type} (less : α → α → Bool) : Prop where
  asymm : ∀ a b, less a b = true → less b a = false
  trans : ∀ a b c, less b a = false → less c b = false → less c a = false

/-- `sort.Slice` as it is documented. -/
structure SliceSort (α : Type) where
  sort : (α → α → Bool) → List α → List α
  perm : ∀ less l, (sort less l).Perm l
  ordered : ∀ less, WeakOrder less → ∀ l, (sort less l).Pairwise fun a b => less b a = false

/-- `pdqsort_func` sorts up to twelve elements by insertion, which keeps the order of equal
elements. That is what the library does, not what it promises. -/
def SliceSort.KeepsShort {α : Type} (S : SliceSort α) : Prop :=
  ∀ less, WeakOrder less → ∀ l, l.length ≤ 12 → ∀ kept : List α, kept.Sublist l →
    kept.Pairwise (fun a b => less b a = false) → kept.Sublist (S.sort less l)

/-! ## `UserModel.IPs` -/

structure UserIP where
  ip : String
  firstSeen : Instant
  lastSeen : Instant
  deriving DecidableEq, Repr

/-- A `UserIP` in the database. -/
structure StoredIP where
  ip : String
  firstSeen : Time
  lastSeen : Time
  deriving DecidableEq, Repr

def UserIP.encode (u : UserIP) : StoredIP where
  ip := u.ip
  firstSeen := dateOf u.firstSeen
  lastSeen := dateOf u.lastSeen

def StoredIP.decode (u : StoredIP) : UserIP where
  ip := u.ip
  firstSeen := u.firstSeen * 1000000
  lastSeen := u.lastSeen * 1000000

def upsertIP (ip : String) (now : Instant) : List UserIP → List UserIP
  | [] => [{ ip, firstSeen := now, lastSeen := now }]
  | u :: ips => if u.ip = ip then { u with lastSeen := now } :: ips else u :: upsertIP ip now ips

/-- The order of `PruneIPs`: `u.IPs[i].LastSeen.After(u.IPs[j].LastSeen)`. -/
def UserIP.after (a b : UserIP) : Bool := b.lastSeen < a.lastSeen

variable (S : SliceSort UserIP)

def pruneIPs (max : Nat) (ips : List UserIP) : List UserIP :=
  let ips := S.sort UserIP.after ips
  if max < ips.length then ips.take max else ips

/-! ## `Login` -/

/-- A call of `Login` for one user, with what it reads and how its calls end. -/
structure AddressedLogin where
  /-- `meta.Get("cf-connecting-ip")`, none without metadata -/
  addr : Option (List String)
  /-- `ValidateToken` -/
  claims : Option Accounts.Claims
  /-- whether `Users.GetByID` succeeds -/
  userRead : Bool
  /-- `Punishments.GetGlobalBan`, none where it fails -/
  punishment : Option (Option PunishmentModel)
  /-- whether `updateUserName` succeeds -/
  nameUpdated : Bool
  /-- of `Users.Update` or `Users.Create` -/
  stored : Outcome
  now : Instant
  /-- the second reading of the clock in `Users.Create` -/
  firstSeen : Instant
  deriving Repr

/-- What is stored about the addresses. -/
inductive AddressWrite
  /-- `Users.Update`, of which `ips` -/
  | update (ips : List UserIP)
  /-- `Users.Create`, of which `IPs` -/
  | create (ips : List UserIP)
  deriving DecidableEq, Repr

def AddressWrite.ips : AddressWrite → List UserIP
  | .update ips | .create ips => ips

namespace AddressedLogin

/-- The address that `Login` works with. -/
def userIP (call : AddressedLogin) : Option String := call.addr.bind List.head?

/-- `Login` outside the LAN mode up to the call that stores the addresses, none where it is
refused before. -/
def login (call : AddressedLogin) (user : Option (List UserIP)) : Option AddressWrite :=
  match call.userIP, call.claims, call.punishment with
  | some userIP, some claims, some punishment =>
      if !claims.active ∨ claims.persona = none ∨ !call.userRead then none
      else
        match user with
        | some ips =>
            -- The ban is looked at behind the update.
            if !call.nameUpdated then none
            else some (.update (pruneIPs S 6 (upsertIP userIP call.now ips)))
        | none =>
            if punishment.any (·.isActive call.now) then none
            else
              some (.create [{ ip := userIP, lastSeen := call.now, firstSeen := call.firstSeen }])
  | _, _, _ => none

/-- The addresses in the document of the user behind a call, none where there is no document. -/
def step (ips : Option (List StoredIP)) (call : AddressedLogin) : Option (List StoredIP) :=
  match call.login S (ips.map (·.map StoredIP.decode)) with
  | none => ips
  | some write =>
      match call.stored with
      | .failed => ips
      | .answered | .unacknowledged => some (write.ips.map UserIP.encode)

/-- Calls of one user, before which there is no document. -/
def run (calls : List AddressedLogin) : Option (List StoredIP) := calls.foldl (step S) none

end AddressedLogin

end Kyber.Api
