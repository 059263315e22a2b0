import CanProxy.Lib.Run
import CanProxy.Lib.Text
import Mathlib.Data.Int.Notation

/-!
Loading one plugin from a shared object, checking its interface, and driving its life.

What the dynamic loader and the plugin's own functions answer is an input of each call. Handles and
instances are whatever pointers they answer with.
-/

namespace CanProxy

/-- The version of the plugin interface that the host expects. -/
def pluginAbiVersion : UInt32 := 1

/-- The symbol that every plugin exports. -/
def pluginEntrySymbol : Text := "canproxy_plugin_entry".toList

/-- What a plugin says of itself; each function is there or missing. -/
structure PluginDescriptor where
  abiVersion : UInt32
  name : Option Text
  versionMajor : UInt8
  versionMinor : UInt8
  create : Bool
  start : Bool
  stop : Bool
  destroy : Bool
deriving DecidableEq

/-- The descriptor has a name and every function. -/
def PluginDescriptor.Complete (d : PluginDescriptor) : Prop :=
  d.name.isSome = true ∧ d.create = true ∧ d.start = true ∧ d.stop = true ∧ d.destroy = true

instance (d : PluginDescriptor) : Decidable d.Complete := inferInstanceAs (Decidable (_ ∧ _))

/-- The arguments that a plugin is created with. -/
structure PluginArgs where
  vehicleIf : Option Text
  args : List (Text × Text)
deriving DecidableEq

/-- Two strings in memory are compared character by character, until they differ or one of them ends. -/
def sameString : Text → Text → Bool
  | k :: ks, q :: qs =>
    if k ≠ Text.nul ∧ q ≠ Text.nul ∧ k = q then sameString ks qs
    -- They are equal when both of them end here.
    else k = Text.nul && q = Text.nul
  | ks, qs => ks.headD Text.nul = Text.nul && qs.headD Text.nul = Text.nul

/-- The value of the first pair with a key. -/
def lookupArg (key : Text) : List (Text × Text) → Option Text
  | [] => none
  | (k, value) :: rest => if sameString k key then some value else lookupArg key rest

/-- Look up a key among the arguments of a plugin; none when it is not there. -/
def canproxyArg (a : PluginArgs) (key : Text) : Option Text := lookupArg key a.args

section Host

variable (H I : Type)

/-- A descriptor that passed the checks, and the library it points into. -/
structure LoadedPlugin where
  library : H
  descriptor : PluginDescriptor
  complete : descriptor.Complete

/-- What a call does to libraries and plugins, in order. -/
inductive HostEvent where
  | opened (h : H)
  | entry (h : H)
  | create (h : H) (args : PluginArgs) (result : Option I)
  | start (h : H) (i : I) (rc : ℤ)
  | stop (h : H) (i : I)
  | destroy (h : H) (i : I)
  | closed (h : H)
  /-- A call through the descriptor while there is none. -/
  | nullCall
deriving DecidableEq

/-- What the loader and the entry function answer to a load. -/
structure Loading where
  handle : Option H
  dlerror : Text
  symbol : Bool
  descriptor : Option PluginDescriptor

/-- The host's members; there is no link between them but the code that changes them. -/
structure PluginHost where
  handle : Option H
  plugin : Option (LoadedPlugin H)
  inst : Option I
  started : Bool

/-- What a call leaves: the host, what it did, and the error it returns, empty on success. -/
structure HostReply where
  host : PluginHost H I
  events : List (HostEvent H I)
  error : Text

end Host

namespace PluginHost

variable {H I : Type}

/-- A host that has loaded nothing. -/
def empty : PluginHost H I := ⟨none, none, none, false⟩

/-- A function of the plugin is called through its descriptor. -/
def calls (p : PluginHost H I) (event : H → HostEvent H I) : HostEvent H I :=
  match p.plugin with
  | some plugin => event plugin.library
  | none => .nullCall

/-- The plugin's name, as errors carry it. -/
def name (p : PluginHost H I) : Text := (p.plugin.bind fun plugin => plugin.descriptor.name).getD []

/-- Stop the plugin if it runs. -/
def stop (p : PluginHost H I) : PluginHost H I × List (HostEvent H I) :=
  match p.inst with
  | some i => if p.started then ({ p with started := false }, [p.calls (.stop · i)]) else (p, [])
  | none => (p, [])

/-- Destroy the instance if there is one. -/
def destroy (p : PluginHost H I) : PluginHost H I × List (HostEvent H I) :=
  match p.inst with
  | some i => ({ p with inst := none }, [p.calls (.destroy · i)])
  | none => (p, [])

/-- Close the library if it is open. -/
def close (p : PluginHost H I) : PluginHost H I × List (HostEvent H I) :=
  match p.handle with
  | some h => ({ p with handle := none }, [.closed h])
  | none => (p, [])

/-- Stop, destroy, forget, and close, whatever of it there is. -/
def unload (p : PluginHost H I) : PluginHost H I × List (HostEvent H I) :=
  let (p, stopped) := p.stop
  let (p, destroyed) := p.destroy
  -- The descriptor is forgotten while the library it points into is still open.
  let (p, closed) := { p with plugin := none }.close
  (p, stopped ++ destroyed ++ closed)

/-- Give up a load after the library was opened. -/
def giveUp (p : PluginHost H I) (before : List (HostEvent H I)) (error : Text) : HostReply H I :=
  let (p, unloaded) := p.unload
  ⟨p, before ++ unloaded, error⟩

/-- Load a plugin in place of the one there is. -/
def load (p : PluginHost H I) (path : Text) (found : Loading H) : HostReply H I :=
  let (p, unloaded) := p.unload
  match found.handle with
  | none => ⟨p, unloaded, "dlopen: ".toList ++ found.dlerror⟩
  | some h =>
    let p := { p with handle := some h }
    let opened := unloaded ++ [.opened h]
    if found.symbol then
      -- From here on the entry function has been called, with the library still open.
      let entered := opened ++ [.entry h]
      match found.descriptor with
      | none => p.giveUp entered (path ++ ": entry returned NULL".toList)
      | some d =>
        if d.abiVersion ≠ pluginAbiVersion then
          p.giveUp entered (path ++ ": ABI version ".toList ++ Text.ofInt d.abiVersion.toNat ++
            ", host expects ".toList ++ Text.ofInt pluginAbiVersion.toNat)
        else if complete : d.Complete then
          ⟨{ p with plugin := some ⟨h, d, complete⟩ }, entered, []⟩
        else p.giveUp entered (path ++ ": incomplete plugin descriptor".toList)
    else p.giveUp opened (path ++ ": no ".toList ++ pluginEntrySymbol ++ " symbol".toList)

/-- Create the plugin's instance; the plugin answers with one or with none. -/
def create (p : PluginHost H I) (vehicleIf : Text) (args : List (Text × Text)) (result : Option I) :
    HostReply H I :=
  match p.plugin with
  | none => ⟨p, [], "no plugin loaded".toList⟩
  | some plugin =>
    if p.inst.isSome then ⟨p, [], "plugin already created".toList⟩
    else
      -- An interface that is not given is passed on as none.
      let pa : PluginArgs := ⟨if vehicleIf = [] then none else some vehicleIf, args⟩
      let p := { p with inst := result }
      match result with
      | none =>
        ⟨p, [.create plugin.library pa result], p.name ++ ": create() failed (see plugin log)".toList⟩
      | some _ => ⟨p, [.create plugin.library pa result], []⟩

/-- Start the instance; the plugin answers with zero on success. -/
def start (p : PluginHost H I) (rc : ℤ) : HostReply H I :=
  match p.inst with
  | none => ⟨p, [], "plugin not created".toList⟩
  | some i =>
    if p.started then ⟨p, [], []⟩
    else
      let called := p.calls (.start · i rc)
      if rc ≠ 0 then ⟨p, [called], p.name ++ ": start() returned ".toList ++ Text.ofInt rc⟩
      else ⟨{ p with started := true }, [called], []⟩

end PluginHost

/-- The calls a host is used through, each with what the loader and the plugin answer to it. -/
inductive HostCall (H I : Type) where
  | load (path : Text) (found : Loading H)
  | create (vehicleIf : Text) (args : List (Text × Text)) (result : Option I)
  | start (rc : ℤ)
  | stop
  | unload
  /-- The destructor, which only unloads. -/
  | destruct

namespace PluginHost

variable {H I : Type}

/-- Make one call. -/
def step (p : PluginHost H I) : HostCall H I → PluginHost H I × List (HostEvent H I)
  | .load path found => ((p.load path found).host, (p.load path found).events)
  | .create vehicleIf args result =>
    ((p.create vehicleIf args result).host, (p.create vehicleIf args result).events)
  | .start rc => ((p.start rc).host, (p.start rc).events)
  | .stop => p.stop
  | .unload => p.unload
  | .destruct => p.unload

/-- Everything that a sequence of calls does. -/
def log (calls : List (HostCall H I)) : List (HostEvent H I) := Run.outputs step empty calls

/-- The host after a sequence of calls. -/
def after (calls : List (HostCall H I)) : PluginHost H I := Run.final step empty calls

end PluginHost

end CanProxy
