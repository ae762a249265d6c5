import SessionBroker.Json.Record

/-!
# Users

Users that may access compute nodes, with the hosts they may come from.
-/

namespace SessionBroker

/-- A user name and the host it may come from; `%` stands for every host. -/
structure Grantee where
  username : String
  hostname : String
deriving DecidableEq, Repr, Inhabited

namespace Grantee

def anyHost : String := "%"

def fieldTexts (g : Grantee) : List (String × List Char) :=
  [("username", Json.renderString g.username), ("hostname", Json.renderString g.hostname)]

def render (g : Grantee) : List Char := Json.braced g.fieldTexts

def fieldNames : List String := ["username", "hostname"]

def ofFields? : List (Option Json.Written) → Option Grantee
  | [some u, h] => do
    let username ← u.string?
    let hostname ← Json.Written.orDefault Json.Written.string? anyHost h
    some ⟨username, hostname⟩
  | _ => none

def ofJson? (w : Json.Written) : Option Grantee := (w.record? fieldNames).bind ofFields?

end Grantee

structure User where
  grantee : Grantee
  password : String
deriving DecidableEq, Repr, Inhabited

namespace User

def username (u : User) : String := u.grantee.username

def hostname (u : User) : String := u.grantee.hostname

def render (u : User) : List Char :=
  Json.braced (u.grantee.fieldTexts ++ [("password", Json.renderString u.password)])

/-- Reads a user at a place where `depth` levels of nesting are left. -/
def ofJson? (depth : Nat) (w : Json.Written) : Option User := do
  match ← w.sharedRecord? (depth - 1) ["password"] Grantee.fieldNames with
  | password :: grantee =>
    let password ← Json.Written.orDefault Json.Written.string? "" password
    let grantee ← Grantee.ofFields? grantee
    some ⟨grantee, password⟩
  | [] => none

end User

end SessionBroker
