import CanProxy.Core.Publisher
import CanProxy.Lib.Scan

/-! The command line, and the publisher that the daemon configures from it. -/

namespace CanProxy

/-- How much is logged. -/
inductive LogLevel where
  | error
  | warn
  | info
  | debug
deriving DecidableEq

/-- The level of a name. -/
def parseLogLevel (name : Text) : Option LogLevel :=
  if name = "error".toList then some .error
  else if name = "warn".toList then some .warn
  else if name = "info".toList then some .info
  else if name = "debug".toList then some .debug
  else none

/-- Where plugins are looked for unless the environment or the command line tells otherwise. -/
def defaultPluginDir : Text := "/usr/local/lib/can-proxy/plugins".toList

/-- What the command line configures. -/
structure Config where
  contractIf : Text := []
  vehicleIf : Text := []
  plugin : Text := []
  pluginDir : Text := []
  pluginArgs : List (Text × Text) := []
  pluginTimeoutMs : UInt32 := 1000
  recordPath : Text := []
  logLevel : LogLevel := .info
  help : Bool := false

/-- The options that take a value, in the order in which an argument is compared with them. -/
inductive Opt where
  | contractIf
  | vehicleIf
  | plugin
  | pluginDir
  | pluginArg
  | pluginTimeoutMs
  | record
  | logLevel
deriving DecidableEq

namespace Opt

/-- Every option, in the order of the comparisons. -/
def all : List Opt :=
  [.contractIf, .vehicleIf, .plugin, .pluginDir, .pluginArg, .pluginTimeoutMs, .record, .logLevel]

/-- The option as it is written. -/
def key : Opt → Text
  | .contractIf => "--contract-if".toList
  | .vehicleIf => "--vehicle-if".toList
  | .plugin => "--plugin".toList
  | .pluginDir => "--plugin-dir".toList
  | .pluginArg => "--plugin-arg".toList
  | .pluginTimeoutMs => "--plugin-timeout-ms".toList
  | .record => "--record".toList
  | .logLevel => "--log-level".toList

end Opt

namespace Config

/-- The value an argument gives to an option, and whether it is the next argument that was taken. -/
def takeValue (arg key : Text) (next : Option Text) : Option (Text × Bool) :=
  if (key ++ ['=']).isPrefixOf arg then some (arg.drop (key.length + 1), false)
  else if arg = key then next.map (·, true)
  else none

/-- The first option an argument gives a value to. -/
def takeOption (arg : Text) (next : Option Text) : Option (Opt × Text × Bool) :=
  Opt.all.findSome? fun opt => (takeValue arg opt.key next).map (opt, ·)

/-- Store the value of an option, or tell what is wrong with it. -/
def store (out : Config) (v : Text) : Opt → Except Text Config
  | .contractIf => .ok { out with contractIf := v }
  | .vehicleIf => .ok { out with vehicleIf := v }
  | .plugin => .ok { out with plugin := v }
  | .pluginDir => .ok { out with pluginDir := v }
  | .pluginArg =>
    -- The key ends at the first equals sign, which must be there and not at the front.
    match v.span (· ≠ '=') with
    | (name, _ :: value) =>
      if name = [] then .error ("--plugin-arg expects key=value, got '".toList ++ v ++ ['\''])
      else .ok { out with pluginArgs := out.pluginArgs ++ [(name, value)] }
    | (_, []) => .error ("--plugin-arg expects key=value, got '".toList ++ v ++ ['\''])
  | .pluginTimeoutMs =>
    let (n, rest) := Scan.strtol (Text.cString v)
    if rest ≠ [] ∨ n ≤ 0 then .error "--plugin-timeout-ms expects a positive integer".toList
    -- The field is narrower than what was read, and keeps its low half.
    else .ok { out with pluginTimeoutMs := UInt32.ofInt n }
  | .record =>
    if v = [] then .error "--record expects a file path".toList
    else .ok { out with recordPath := v }
  | .logLevel =>
    match parseLogLevel v with
    | some level => .ok { out with logLevel := level }
    | none => .error ("unknown log level '".toList ++ v ++ ['\''])

/-- What is done behind the last argument; the error is empty when nothing is missing. -/
def finish (out : Config) : Config × Text :=
  let out :=
    if out.recordPath ≠ [] then
      { out with pluginArgs := out.pluginArgs ++ [("record".toList, out.recordPath)] }
    else out
  if out.contractIf = [] then (out, "--contract-if is required".toList)
  else if out.plugin = [] then (out, "--plugin is required".toList)
  else (out, [])

/-- The argument asks for the usage. -/
def isHelp (arg : Text) : Bool := arg = "--help".toList || arg = "-h".toList

/-- The loop; an argument that was taken as the value of the one before it is passed over. -/
def parseLoop (out : Config) : Bool → List Text → Config × Text
  | _, [] => finish out
  | true, _ :: rest => parseLoop out false rest
  | false, arg :: rest =>
    if isHelp arg then ({ out with help := true }, [])
    else
      match takeOption arg rest.head? with
      | some (opt, v, taken) =>
        match store out v opt with
        | .ok out => parseLoop out taken rest
        | .error e => (out, e)
      | none => (out, "unknown argument '".toList ++ arg ++ ['\''])

/-- Read the arguments behind the program's name; the error is empty on success. -/
def parse (env : Option Text) (args : List Text) : Config × Text :=
  parseLoop { pluginDir := env.getD defaultPluginDir } false args

/-- The values a command line gives to options, up to a request for the usage or an unknown argument. -/
def given : Bool → List Text → List (Opt × Text)
  | _, [] => []
  | true, _ :: rest => given false rest
  | false, arg :: rest =>
    if isHelp arg then []
    else
      match takeOption arg rest.head? with
      | some (opt, v, taken) => (opt, v) :: given taken rest
      | none => []

/-- The value, when it is one for a certain option. -/
def valueFor (opt : Opt) (pair : Opt × Text) : Option Text := if pair.1 = opt then some pair.2 else none

/-- The values a command line gives to one option, in order. -/
def valuesOf (opt : Opt) (args : List Text) : List Text := (given false args).filterMap (valueFor opt)

/-- The publisher the daemon starts, its timeout in nanoseconds. -/
def publisher (cfg : Config) (versionMajor versionMinor : UInt8) : Publisher :=
  .new ((cfg.pluginTimeoutMs.toNat : ℤ) * 1000000) versionMajor versionMinor

/-- Where the plugin is loaded from: a path is taken as it is, a name is looked for in the directory. -/
def resolvePluginPath (cfg : Config) : Text :=
  let isPath := cfg.plugin.contains '/'
  let isSo := cfg.plugin.length > 3 && cfg.plugin.drop (cfg.plugin.length - 3) == ".so".toList
  if isPath || isSo then cfg.plugin else cfg.pluginDir ++ ['/'] ++ cfg.plugin ++ ".so".toList

end Config

end CanProxy
