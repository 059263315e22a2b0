import CanProxy.Core.PluginHost
import CanProxy.Emu.Plugin
import CanProxy.Forza.Plugin
import CanProxy.Ice.Loop
import CanProxy.Lib.Scan
import CanProxy.Sim.Plugin

/-!
What each plugin makes of the arguments it is created with.

A creation gives what the plugin is configured with, or the error that it logs before it gives up.
-/

namespace CanProxy

/-- An argument as its plugin reads it; one that is not given has a fallback. -/
def readArg {α : Type} (args : PluginArgs) (key : Text) (fallback : α) (read : Text → Except Text α) :
    Except Text α :=
  match canproxyArg args key with
  | some value => read (Text.cString value)
  | none => .ok fallback

/-- One of a few names, each of which has a code. -/
def oneOf (names : List (Text × ℤ)) (error : Text → Text) (v : Text) :
    Except Text {code : ℤ // code ∈ names.map Prod.snd} :=
  match found : names.find? (·.1 = v) with
  | some pair => .ok ⟨pair.2, List.mem_map_of_mem (List.mem_of_find?_eq_some found)⟩
  | none => .error (error v)

/-- A number that has to be within bounds. -/
def bounded (low high : ℤ) (error : Text) (n : ℤ) : Except Text {n : ℤ // low ≤ n ∧ n ≤ high} :=
  if within : low ≤ n ∧ n ≤ high then .ok ⟨n, within⟩ else .error error

namespace Script

/-- The drivetrains that can be scripted. -/
def drivetrains : List (Text × ℤ) :=
  [("ice".toList, cpDrivetrainIce), ("bev".toList, cpDrivetrainBev), ("hev".toList, cpDrivetrainHev),
    ("phev".toList, cpDrivetrainPhev)]

/-- Create the simulated vehicle. -/
def create (args : PluginArgs) : Except Text Config := do
  let drivetrain ← readArg args "drivetrain".toList ⟨cpDrivetrainBev, by decide⟩ <|
    oneOf drivetrains fun d => "unknown drivetrain '".toList ++ d ++ "' (ice|bev|hev|phev)".toList
  let assist ← readArg args "assist".toList true fun a => .ok (Scan.atoi a ≠ 0)
  let link ← readArg args "link".toList true fun l => .ok (Scan.atoi l ≠ 0)
  let stallAfterMs ← readArg args "stall_after_ms".toList (-1) fun st => .ok (Scan.strtol st).1
  let tickMs ← readArg args "tick_ms".toList ⟨20, by decide⟩ fun t =>
    bounded 5 1000 "tick_ms out of range 5..1000".toList (Scan.atoi t)
  return ⟨drivetrain, assist, link, stallAfterMs, tickMs, drivetrain.2, tickMs.2⟩

end Script

namespace Forza

/-- What the game's plugin is created with. -/
structure Created where
  config : Config
  port : ℤ
  ports : 1 ≤ port ∧ port ≤ 65535

/-- The drivetrains that the car in the game can be said to have. -/
def drivetrains : List (Text × ℤ) :=
  [("ice".toList, cpDrivetrainIce), ("bev".toList, cpDrivetrainBev), ("hev".toList, cpDrivetrainHev)]

/-- Create the game's plugin. -/
def create (args : PluginArgs) : Except Text Created := do
  let port ← readArg args "port".toList ⟨1101, by decide⟩ fun v =>
    bounded 1 65535 "port out of range".toList (Scan.atoi v)
  let drivetrain ← readArg args "drivetrain".toList ⟨cpDrivetrainIce, by decide⟩ <|
    oneOf drivetrains fun d => "unknown drivetrain '".toList ++ d ++ "' (ice|bev|hev)".toList
  -- A timeout has no upper bound but that of a long.
  let timeoutMs : {n : ℤ // 100 ≤ n} ← readArg args "timeout_ms".toList ⟨1000, by decide⟩ fun t =>
    if long : 100 ≤ (Scan.strtol t).1 then .ok ⟨(Scan.strtol t).1, long⟩
    else .error "timeout_ms must be >= 100".toList
  return ⟨⟨drivetrain, timeoutMs, timeoutMs.2⟩, port, port.2⟩

end Forza

/-- Where the frames of a vehicle come from. -/
def sources : List (Text × ℤ) :=
  [("live".toList, cpSourceLive), ("emulator".toList, cpSourceEmulator), ("replay".toList, cpSourceReplay)]

/-- The interval of the parameters that change fast. -/
def readFastMs (args : PluginArgs) : Except Text {n : ℤ // 20 ≤ n ∧ n ≤ 5000} :=
  readArg args "fast_ms".toList ⟨100, by decide⟩ fun f =>
    bounded 20 5000 "fast_ms out of range 20..5000".toList (Scan.strtol f).1

/-- Where the frames are recorded, if anywhere. -/
def readRecord (args : PluginArgs) : Except Text Text := readArg args "record".toList [] .ok

namespace Ice

/-- What the plugin for a combustion car is created with. -/
structure Created where
  vehicleIf : Text
  config : Config
  telltaleId : ℤ
  recordPath : Text
  sourced : config.source ∈ sources.map Prod.snd
  paced : 20 ≤ config.fastMs ∧ config.fastMs ≤ 5000

/-- Create the plugin for a combustion car. -/
def create (args : PluginArgs) : Except Text Created := do
  let some vehicleIf := args.vehicleIf | throw "obd2-ice needs --vehicle-if".toList
  let source ← readArg args "source".toList ⟨cpSourceLive, by decide⟩ <|
    oneOf sources fun s => "unknown source '".toList ++ s ++ "' (live|emulator|replay)".toList
  let fastMs ← readFastMs args
  -- A live car has no lamp frames unless an identifier is given.
  let fallback : ℤ := if source.1 = cpSourceLive then -1 else 0x420
  let telltaleId ← readArg args "telltale_id".toList fallback fun t =>
    .ok (if t = "none".toList then -1 else Scan.strtolAny t)
  let recordPath ← readRecord args
  return ⟨Text.cString vehicleIf, ⟨source, fastMs⟩, telltaleId, recordPath, source.2, fastMs.2⟩

/-- The identifier that the client takes lamp frames from; a negative number stands for none. -/
def Created.broadcastId (p : Created) : Option UInt32 :=
  if p.telltaleId ≥ 0 then some (UInt32.ofInt p.telltaleId) else none

end Ice

namespace Emu

/-- What the plugin for an emulated car is created with. -/
structure Created where
  vehicleIf : Text
  config : Config
  recordPath : Text
  sourced : config.source ∈ sources.map Prod.snd
  paced : 20 ≤ config.fastMs ∧ config.fastMs ≤ 5000

/-- Create the plugin for an emulated car, one entry function for each of its two kinds. -/
def createImpl (hybrid : Bool) (args : PluginArgs) : Except Text Created := do
  let some vehicleIf := args.vehicleIf
    | throw ((if hybrid then "emu-hybrid" else "emu-ev").toList ++ " needs --vehicle-if".toList)
  let source ← readArg args "source".toList ⟨cpSourceEmulator, by decide⟩ <|
    oneOf sources fun s => "unknown source '".toList ++ s ++ "'".toList
  let fastMs ← readFastMs args
  let recordPath ← readRecord args
  return ⟨Text.cString vehicleIf, ⟨hybrid, source, fastMs⟩, recordPath, source.2, fastMs.2⟩

end Emu

end CanProxy
