import RadioRing.Json.Basic
import RadioRing.Node.Basic
/-!
# StatusPage — a node's status over HTTP

Two pages tell how a node is doing: `/health` says in a few words whether it runs, `/status` gives
all of its status.  They can be read (`GET`, and `HEAD` for the answer without its content); **any
other use of them is refused, and any other page is missing.**
-/

namespace RadioRing

/-- The answer to a request. -/
structure StatusPage where
  code : Nat
  content : Option Json
deriving Inhabited

/-- A session as data, if there is one. -/
def Session.json : Option Session → Json
  | some s => .nat s.word.toNat
  | none => .null

/-- Counters as data, by name. -/
def Stats.json (s : Stats) : Json := .object (s.named.map fun (name, n) => (name, .nat n))

/-- All of a status as data. -/
def Status.json (s : Status) : Json :=
  .object [("node", .nat s.node.toNat), ("state", .text s.state), ("master_node", .bool s.master),
    ("session", Session.json s.session),
    ("eligible", .array (s.eligible.map fun a => .nat a.toNat)), ("stats", s.stats.json)]

/-- The health of a node as data. -/
def Status.health (s : Status) (running : Bool) : Json :=
  .object [("healthy", .bool running), ("node", .nat s.node.toNat), ("state", .text s.state),
    ("master", .bool s.master)]

namespace StatusPage

/-- Whether a character may stand in the name of a scheme. -/
def inScheme (c : Char) : Bool := c.isAlphanum || c = '+' || c = '-' || c = '.' || c = '~'

/-- What a target says behind its authority; a target without a scheme has none. -/
def behindAuthority (target : List Char) : List Char :=
  match target.dropWhile inScheme with
  | ':' :: '/' :: '/' :: rest => rest.dropWhile fun c => c ≠ '/' && c ≠ '?' && c ≠ '#'
  | _ => target

/-- The path that a request's target names: what stands in front of a question mark or a number
sign, **without a scheme and an authority**. -/
def route (target : String) : String :=
  String.ofList ((behindAuthority target.toList).takeWhile fun c => c ≠ '?' && c ≠ '#')

/-- The page at a target, for somebody who reads it. -/
def find? (status : Status) (running : Bool) (target : String) : Option StatusPage :=
  if route target = "/health" then
    some ⟨if running then 200 else 503, some (status.health running)⟩
  else if route target = "/status" then some ⟨200, some status.json⟩
  else none

/-- The answer to a request; `running` says whether the node is still at work. -/
def answer (status : Status) (running : Bool) (method target : String) : StatusPage :=
  match find? status running target with
  | none => ⟨404, none⟩
  | some page =>
    if method = "GET" then page
    else if method = "HEAD" then { page with content := none }
    else ⟨405, none⟩

end StatusPage

end RadioRing
