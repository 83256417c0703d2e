import Statechart.Config.Basic
import Statechart.FileSystem
import Statechart.Text.Lowercase
import Statechart.Text.Blank
import Statechart.Yaml.Scalar

/-!
# Reading configurations

A configuration starts from the defaults.  A file, named by the host or by an
environment variable, changes them, and then the environment does; a value of
the environment that makes no sense is passed over.  In the end a macrostep must
be allowed one microstep at least.
-/

namespace Statechart

/-- Why there is no configuration. -/
inductive ConfigError where
  | file (path : String) (fault : FileFault)
  | malformed (path : String)
  | noMicrosteps
  deriving Repr, DecidableEq

/-- The message of a configuration error. -/
def ConfigError.message : ConfigError → String
  | file path fault => "failed to read config file '" ++ path ++ "': " ++ fault.message
  | malformed path => "failed to parse config file '" ++ path ++ "': malformed configuration"
  | noMicrosteps => "configuration validation failed: max_microsteps must be at least 1"

/-- A stable code for configuration errors. -/
def ConfigError.code (_ : ConfigError) : String := "CONFIG_ERROR"

/-- The policy with a name. -/
def ErrorPolicy.named? : String → Option ErrorPolicy
  | "skip" => some .skip
  | "abort" => some .abort
  | _ => none

namespace Config

/-- The members of a configuration, in the order in which an array lists them. -/
def memberNames : List String := ["max_microsteps", "error_policy", "max_reports"]

/-- Holds of the members of a configuration. -/
def isMember (name : String) : Bool := memberNames.contains name

/-- Reads the items of an array as the members of the given names. -/
def readPositions {α : Type} (member : Config → String → α → Option Config) (config : Config) :
    (names : List String) → List α → Option Config
  | _, [] => some config
  | [], _ :: _ => none
  | name :: names, a :: rest => do readPositions member (← member config name a) names rest

/-! ## From values -/

/-- Reads a count. -/
def decodeCount : Value → Option Nat
  | .int n => if 0 ≤ n then some n.toNat else none
  | _ => none

/-- Reads a policy. -/
def decodePolicy : Value → Option ErrorPolicy
  | .str name => ErrorPolicy.named? name
  | .obj [(name, .null)] => ErrorPolicy.named? name
  | _ => none

/-- Reads a member. -/
def decodeMember (config : Config) (name : String) (v : Value) : Option Config :=
  match name with
  | "max_microsteps" => return { config with maxMicrosteps := ← decodeCount v }
  | "error_policy" => return { config with policy := ← decodePolicy v }
  | "max_reports" => return { config with maxReports := ← decodeCount v }
  | _ => return config

/-- Reads members. -/
def decodeMembers (config : Config) : List (String × Value) → Option Config
  | [] => some config
  | (name, v) :: rest => do decodeMembers (← config.decodeMember name v) rest

/-- Reads a configuration; members that are absent keep their defaults. -/
def decode? : Value → Option Config
  | .obj fields => decodeMembers {} fields
  | .arr items => readPositions decodeMember {} memberNames items
  | _ => none

/-! ## From YAML -/

/-- Reads a count, which must be a plain scalar. -/
def yamlCount : Yaml.Node → Option Nat
  | .scalar text true => Yaml.count? text.toList
  | _ => none

/-- Reads a member. -/
def yamlMember (config : Config) (name : String) (v : Yaml.Node) : Option Config :=
  match name with
  | "max_microsteps" => return { config with maxMicrosteps := ← yamlCount v }
  | "error_policy" => return { config with policy := ← v.text?.bind ErrorPolicy.named? }
  | "max_reports" => return { config with maxReports := ← yamlCount v }
  | _ => if v.isWhole then some config else none

/-- Reads members; none must come twice. -/
def yamlMembers (config : Config) (seen : List String) :
    List (Yaml.Node × Yaml.Node) → Option Config
  | [] => some config
  | (k, v) :: rest => do
    let name ← k.text?
    if isMember name && seen.contains name then none
    else yamlMembers (← config.yamlMember name v) (name :: seen) rest

/-- Reads a configuration from YAML text; an empty text keeps the defaults. -/
def ofYaml? (text : String) : Option Config := do
  let stream := Yaml.read text
  let config ← match stream.root with
    | none => some {}
    | some (.scalar "" true) => some {}
    | some (.mapping pairs) => yamlMembers {} [] pairs
    | some (.sequence items) => readPositions yamlMember {} memberNames items
    | some _ => none
  if stream.isWhole then return config else none

/-- Reads a configuration file. -/
def ofFile (fs : FileSystem) (path : String) : Except ConfigError Config :=
  match fs.read path with
  | .error fault => .error (.file path fault)
  | .ok text =>
    match ofYaml? text with
    | some config => .ok config
    | none => .error (.malformed path)

/-! ## From the environment -/

/-- Environment variables. -/
abbrev Environment := String → Option String

/-- The environment variable that names a file. -/
def fileVariable : String := "RSTCHART_CONFIG"

/-- The environment variable for the number of microsteps. -/
def microstepsVariable : String := "RSTCHART_MAX_MICROSTEPS"

/-- The environment variable for the policy. -/
def policyVariable : String := "RSTCHART_ERROR_POLICY"

/-- The environment variable for the number of reports. -/
def reportsVariable : String := "RSTCHART_MAX_REPORTS"

/-- The count that a text is: decimal digits, maybe with a plus before them,
below `2 ^ 64`. -/
def countOf? (text : String) : Option Nat :=
  let digits := match text.toList with
    | '+' :: rest => rest
    | cs => cs
  (Yaml.digitsIn 10 digits).filter (· < Value.endOfWord)

/-- The policy that a text names, in any case and with blanks around it. -/
def policyOf? (text : String) : Option ErrorPolicy :=
  ErrorPolicy.named? (Text.lowercase (Text.trim text))

/-- Applies the environment. -/
def override (config : Config) (env : Environment) : Config where
  maxMicrosteps := ((env microstepsVariable).bind countOf?).getD config.maxMicrosteps
  policy := ((env policyVariable).bind policyOf?).getD config.policy
  maxReports := ((env reportsVariable).bind countOf?).getD config.maxReports

/-- Accepts a configuration that allows a microstep. -/
def validate (config : Config) : Except ConfigError Unit :=
  if config.maxMicrosteps = 0 then .error .noMicrosteps else .ok ()

/-- Loads the configuration from the file of a path, or else of the environment,
and applies the environment. -/
def load (fs : FileSystem) (env : Environment) (path : Option String) :
    Except ConfigError Config := do
  let config ← match path.or (env fileVariable) with
    | none => pure {}
    | some path => ofFile fs path
  let config := config.override env
  config.validate
  return config

end Config
end Statechart
