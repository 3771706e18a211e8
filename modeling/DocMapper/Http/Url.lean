import DocMapper.Number.Digits
import DocMapper.Text.Percent

/-!
# URLs

The parts of a server's address: scheme, user, host, port and path.  The path of
a request is resolved against that of the server.
-/

namespace DocMapper

structure Url where
  scheme : String
  /-- User and password, if the address names a user. -/
  user : Option (String × String)
  host : String
  /-- Absent if it is the usual one of the scheme. -/
  port : Option Nat
  /-- Starts and ends with a slash. -/
  path : String
  deriving DecidableEq, Repr

namespace Url

def isSchemeChar (c : Char) : Bool := c.isAlphanum || c = '+' || c = '-' || c = '.'

def splitScheme (cs : List Char) : List Char × List Char :=
  match cs.span isSchemeChar with
  | (c :: name, ':' :: rest) => if c.isAlpha then (c :: name, rest) else ([], cs)
  | _ => ([], cs)

def splitAuthority : List Char → List Char × List Char
  | '/' :: '/' :: rest => rest.span (· != '/')
  | cs => ([], cs)

/-- What stands before the last `@`, if there is one, and the rest. -/
def splitUser (cs : List Char) : Option (List Char) × List Char :=
  match cs.reverse.span (· != '@') with
  | (host, '@' :: user) => (some user.reverse, host.reverse)
  | _ => (none, cs)

def credentials (cs : List Char) : String × String :=
  let (user, rest) := cs.span (· != ':')
  (Percent.decode (String.ofList user), Percent.decode (String.ofList (rest.drop 1)))

/-- The host, without the brackets of a numeric one, and the rest. -/
def splitHost : List Char → List Char × List Char
  | '[' :: rest =>
      let (host, after) := rest.span (· != ']')
      (host, after.drop 1)
  | cs => cs.span (· != ':')

def usualPort? : String → Option Nat
  | "http" => some 80
  | "https" => some 443
  | "ftp" => some 21
  | "ws" => some 80
  | "wss" => some 443
  | _ => none

def portOf (scheme : String) (cs : List Char) : Option Nat :=
  match Digits.span (cs.drop 1) with
  | ([], _) => none
  | (ds, _) =>
      let port := Digits.value ds
      if usualPort? scheme = some port then none else some port

def lowered (cs : List Char) : String := String.ofList (cs.map Char.toLower)

def withoutEndSlashes (s : String) : String :=
  String.ofList (s.toList.reverse.dropWhile (· == '/')).reverse

def ofText (s : String) : Url :=
  let (scheme, rest) := splitScheme (withoutEndSlashes s).toList
  let (authority, path) := splitAuthority rest
  let (user, server) := splitUser authority
  let (host, port) := splitHost server
  let user := match user.map credentials with
    | some (name, password) =>
        if name.isEmpty && password.isEmpty then none else some (name, password)
    | none => none
  ⟨lowered scheme, user, lowered host, portOf (lowered scheme) port,
    String.ofList path ++ "/"⟩

/-- The path of a request: what follows the path of the server.  At the front of
a path two slashes would announce a host, so the part up to the next slash is not
part of the path. -/
def resolve (url : Url) (path : String) : String :=
  let (_, rest) := splitAuthority path.toList
  url.path ++ String.ofList (rest.dropWhile (· == '/'))

end Url

end DocMapper
