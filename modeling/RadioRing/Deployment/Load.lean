import RadioRing.Deployment.Basic
import RadioRing.Deployment.Toml
import RadioRing.Options.Basic
/-!
# Deployment/Load — arguments, environment and settings file

`Deployment.load` puts together what a node is told: **an argument wins over an environment
variable, and both win over the settings file**, which is read only if one of them names it.
-/

namespace RadioRing

namespace Deployment

/-- Whether a text is an integer from 0 to `most`. -/
def isIntegerUpTo (most : Int) (s : String) : Bool :=
  (NumberText.integerBetween? 0 most s).isSome

/-- The options of a deployed node. -/
def specs : List OptionSpec :=
  [{ name := "config", letter := some 'c', accepts := fun _ => true,
     envName := some "MESHTURN_CONFIG" },
   { name := "node", accepts := isIntegerUpTo 255, envName := some "MESHTURN_NODE" },
   { name := "universe", isList := true, accepts := isIntegerUpTo 255,
     envName := some "MESHTURN_UNIVERSE" },
   { name := "bind-host", accepts := fun _ => true, envName := some "MESHTURN_BIND_HOST" },
   { name := "base-port", accepts := isIntegerUpTo 65535,
     envName := some "MESHTURN_BASE_PORT" },
   { name := "status-addr", accepts := fun s => (SocketAddress.parse? s).isSome,
     envName := some "MESHTURN_STATUS_ADDR" },
   { name := "loss", accepts := fun s => (NumberText.float? s).isSome,
     envName := some "MESHTURN_LOSS" },
   { name := "data-dir", accepts := fun s => s ≠ "", envName := some "MESHTURN_DATA_DIR" }]

/-- A number that an option was given. -/
def number (s : String) : Nat := ((NumberText.integer? s).getD 0).toNat

/-- The deployment with what the options say instead. -/
def override (d : Deployment) (o : Options) : Deployment :=
  { d with
    node := ((o.value? "node").map fun s => (number s).toUInt8).getD d.node
    roster := if o.has "universe" then (o.all "universe").map fun s => (number s).toUInt8
      else d.roster
    bindHost := (o.value? "bind-host").getD d.bindHost
    basePort := ((o.value? "base-port").map number).getD d.basePort
    statusAddress := ((o.value? "status-addr").bind SocketAddress.parse?).getD d.statusAddress
    loss := ((o.value? "loss").bind NumberText.float?).getD d.loss
    dataDirectory := (o.value? "data-dir").or d.dataDirectory }

/-- What a node is told, or why it does not start.  A fault of the arguments comes first, then one
of the file, and then one of the settings. -/
inductive Loaded
  | ready (d : Deployment) (s : Settings)
  | usage (e : UsageError)
  | refused (e : DeploymentError)
  | fault (e : Overflow)

/-- The deployment in the settings file that the options name, if they do. -/
def fromFile (contentOf : String → Option String) (o : Options) :
    Except DeploymentError Deployment :=
  match o.value? "config" with
  | none => .ok {}
  | some path =>
    match contentOf path with
    | none => .error .file
    | some content =>
      match (Toml.parse? content).bind ofAssignments? with
      | some d => .ok d
      | none => .error .unreadable

/-- The options of the arguments, or else of the environment. -/
def options (args : List String) (environment : List (String × String)) :
    Except UsageError Options :=
  Options.parse specs args >>= fun o => o.withVariables environment specs

/-- The settings file that arguments and environment name. -/
def settingsFile? (args : List String) (environment : List (String × String)) : Option String :=
  (options args environment).toOption.bind (·.value? "config")

/-- Puts together what a node is told.  `contentOf` gives the content of a file, if there is one. -/
def load (contentOf : String → Option String) (args : List String)
    (environment : List (String × String)) : Loaded :=
  match options args environment with
  | .error e => .usage e
  | .ok o =>
    match fromFile contentOf o with
    | .error e => .refused e
    | .ok d =>
      let d := d.override o
      match d.check with
      | .error e => .fault e
      | .ok (.error e) => .refused e
      | .ok (.ok s) => .ready d s

end Deployment

end RadioRing
