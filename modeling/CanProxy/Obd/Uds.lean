import CanProxy.Lib.Bits

/-! Reading data by identifier over a diagnostic channel: replies, and the fields of their records. -/

namespace CanProxy

/-- The service that reads data by identifier. -/
def kUdsReadDataByIdentifier : UInt8 := 0x22

/-- The first byte of a negative response. -/
def kUdsNegativeResponse : UInt8 := 0x7F

/-- A parsed reply: the record after the echoed identifier, or the reason for refusing. -/
structure UdsReply where
  positive : Bool
  nrc : UInt8
  data : List UInt8
deriving DecidableEq

/-- The request for an identifier. -/
def buildReadDid (did : UInt16) : List UInt8 :=
  [kUdsReadDataByIdentifier, (did >>> 8).toUInt8, (did &&& 0xFF).toUInt8]

/-- Parse a reply to a request for an identifier; none when it is neither the answer nor a refusal. -/
def parseReadDidReply (pdu : List UInt8) (did : UInt16) : Option UdsReply :=
  match pdu with
  | b0 :: b1 :: b2 :: data =>
    -- A refusal is recognised by the service it names, whichever identifier was asked for.
    if b0 = kUdsNegativeResponse ∧ b1 = kUdsReadDataByIdentifier then some ⟨false, b2, []⟩
    else if b0 = kUdsReadDataByIdentifier + 0x40 ∧ b1.toUInt16 = did >>> 8 ∧
        b2.toUInt16 = did &&& 0xFF then
      some ⟨true, 0, data⟩
    else none
  | _ => none

/-- One round trip: the reply to what the channel returned, none when the transport failed. -/
def readDid (response : Option (List UInt8)) (did : UInt16) : Option UdsReply :=
  response.bind (parseReadDidReply · did)

/-- The unsigned 16-bit field at an offset of a record, high byte first. -/
def be16 (d : List UInt8) (i : Nat) : UInt16 :=
  -- Offsets are those of the decoders, which have checked the record's length.
  ((d.getD i 0).toUInt16 <<< 8) ||| (d.getD (i + 1) 0).toUInt16

/-- The signed 16-bit field at an offset of a record. -/
def be16s (d : List UInt8) (i : Nat) : Int16 := (be16 d i).toInt16

/-- The unsigned 32-bit field at an offset of a record. -/
def be32 (d : List UInt8) (i : Nat) : UInt32 :=
  ((d.getD i 0).toUInt32 <<< 24) ||| ((d.getD (i + 1) 0).toUInt32 <<< 16) |||
    ((d.getD (i + 2) 0).toUInt32 <<< 8) ||| (d.getD (i + 3) 0).toUInt32

end CanProxy
