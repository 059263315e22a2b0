import CanProxy.Proofs.Core.Daemon
import CanProxy.Proofs.Emu.Wire

/-! From a controller's reply to the bus: what is shown of a record, some reply held. -/

namespace CanProxy.Emu

open Numeric

section Turn

variable {c : Config} {turn : Turn}

end Turn

end CanProxy.Emu
