import CanProxy.Core.Config
import CanProxy.Core.PluginHost
import CanProxy.Lib.Run

/-!
Command lines that spell out values of options, and what these are meant to configure.

How the arguments are read is no part of this: a value counts by its option and its place alone.
-/

namespace CanProxy.Config

/-- The arguments spell out pairs, each joined by an equals sign or as two arguments. -/
inductive Spells : List (Opt × Text) → List Text → Prop where
  | nil : Spells [] []
  /-- The option and its value are one argument. -/
  | joined {pairs : List (Opt × Text)} {args : List Text} (opt : Opt) (v : Text)
    (rest : Spells pairs args) : Spells ((opt, v) :: pairs) ((opt.key ++ '=' :: v) :: args)
  /-- The value is the argument behind its option. -/
  | apart {pairs : List (Opt × Text)} {args : List Text} (opt : Opt) (v : Text)
    (rest : Spells pairs args) : Spells ((opt, v) :: pairs) (opt.key :: v :: args)

/-- The values that pairs give to an option, in order. -/
def valuesIn (opt : Opt) (pairs : List (Opt × Text)) : List Text := pairs.filterMap (valueFor opt)

/-- The last value that pairs give to an option. -/
def lastIn (opt : Opt) (pairs : List (Opt × Text)) : Option Text := Run.last (valueFor opt) pairs

/-- The value is one that the option takes. -/
def Takes (v : Text) : Opt → Prop
  | .pluginArg => ∃ name value, name ≠ [] ∧ '=' ∉ name ∧ v = name ++ '=' :: value
  | .pluginTimeoutMs => ∃ n : ℤ, 0 < n ∧ Scan.strtol (Text.cString v) = (n, [])
  | .record => v ≠ []
  | .logLevel => (parseLogLevel v).isSome = true
  | _ => True

/-- Every value is one its option takes, and the two options that are required end up with one. -/
structure Acceptable (pairs : List (Opt × Text)) : Prop where
  taken : ∀ pair ∈ pairs, Takes pair.2 pair.1
  contractIf : ∃ v ≠ [], lastIn .contractIf pairs = some v
  plugin : ∃ v ≠ [], lastIn .plugin pairs = some v

/-- The key of a plugin argument and its value, apart at the first equals sign. -/
def splitArg (v : Text) : Text × Text := (v.takeWhile (· ≠ '='), (v.dropWhile (· ≠ '=')).tail)

/-- What pairs configure, except that the recorded path is not passed on to the plugin. -/
def collected (env : Option Text) (pairs : List (Opt × Text)) : Config where
  contractIf := (lastIn .contractIf pairs).getD []
  vehicleIf := (lastIn .vehicleIf pairs).getD []
  plugin := (lastIn .plugin pairs).getD []
  pluginDir := (lastIn .pluginDir pairs).getD (env.getD defaultPluginDir)
  pluginArgs := (valuesIn .pluginArg pairs).map splitArg
  -- Of a number that does not fit the field, the low half is left.
  pluginTimeoutMs :=
    ((lastIn .pluginTimeoutMs pairs).map fun v =>
      UInt32.ofInt (Scan.strtol (Text.cString v)).1).getD 1000
  recordPath := (lastIn .record pairs).getD []
  logLevel := ((lastIn .logLevel pairs).bind parseLogLevel).getD .info

/-- The argument by which the plugin learns of a recorded path. -/
def recordArgs (pairs : List (Opt × Text)) : List (Text × Text) :=
  (lastIn .record pairs).toList.map (("record".toList, ·))

/-- What pairs configure. -/
def configured (env : Option Text) (pairs : List (Opt × Text)) : Config :=
  { collected env pairs with
    pluginArgs := (collected env pairs).pluginArgs ++ recordArgs pairs }

/-- A configuration holds a value of an option that can have only one. -/
def Holds (cfg : Config) (v : Text) : Opt → Prop
  | .contractIf => cfg.contractIf = v
  | .vehicleIf => cfg.vehicleIf = v
  | .plugin => cfg.plugin = v
  | .pluginDir => cfg.pluginDir = v
  | .pluginArg => True
  | .pluginTimeoutMs => Scan.strtol (Text.cString v) = ((cfg.pluginTimeoutMs.toNat : ℤ), [])
  | .record => cfg.recordPath = v
  | .logLevel => parseLogLevel v = some cfg.logLevel

/-- The command lines that spell out pairs do with them what is expected. -/
structure Configures (env : Option Text) (pairs : List (Opt × Text)) : Prop where
  /-- It does not matter how they are spelled. -/
  spelling : ∀ args args', Spells pairs args → Spells pairs args' → parse env args' = parse env args
  /-- An option that can have only one value has the last one. -/
  last : ∀ args cfg, Spells pairs args → parse env args = (cfg, []) →
    ∀ opt v, lastIn opt pairs = some v → cfg.Holds v opt
  /-- It does not matter in which order different options are given. -/
  order : ∀ args cfg, Spells pairs args → parse env args = (cfg, []) →
    ∀ pairs' args', (∀ opt, valuesIn opt pairs' = valuesIn opt pairs) → Spells pairs' args' →
      parse env args' = (cfg, [])
  /-- The plugin gets its arguments in order, and the recorded path behind them. -/
  pluginArgs : ∀ args cfg, Spells pairs args → parse env args = (cfg, []) →
    ∃ parts, valuesIn .pluginArg pairs = parts.map (fun part => part.1 ++ '=' :: part.2) ∧
      (∀ part ∈ parts, '=' ∉ part.1) ∧ cfg.pluginArgs = parts ++ recordArgs pairs
  /-- A plugin that looks up a key finds the first pair with it, if there is one. -/
  lookup : ∀ args cfg, Spells pairs args → parse env args = (cfg, []) →
    ∀ (H I : Type) (host : PluginHost H I) (created result : Option I) (library : H) (pa : PluginArgs),
      .create library pa created ∈ (host.create cfg.vehicleIf cfg.pluginArgs result).events →
      ∀ key, Text.nul ∉ key →
        canproxyArg pa key = (cfg.pluginArgs.find? fun pair => pair.1 = key).map Prod.snd

end CanProxy.Config
