import MsgRiver.Lib.Ascii
import MsgRiver.Lib.Json
import MsgRiver.Lib.Text

/-!
# One provider attempt

The vocabulary of the driver boundary: what a driver is given (`Delivery`), what it may report
(`DeliveryOutcome`, `DriverError`), and what the world may do to it (`Peer`).

A peer decides how far an exchange gets (name resolution, connection, socket options, TLS set-up,
write) and then answers reads one by one.  Each read gives at most 1024 bytes, the size of the
buffer; no bytes means end of stream.  Both readers stop after finitely many reads, so a peer is a
finite list of them, and a read past its end times out.
-/

namespace MsgRiver.Connector

/-- A bounded, provider-owned delivery shape. -/
inductive Delivery
  | ntfy (topic : String) (title : Option String) (body : String)
  | whatsapp (recipient template locale : String) (parameters : List String)
  deriving DecidableEq

/-- Outcome of exactly one provider attempt. -/
inductive DeliveryOutcome
  | accepted (acknowledgement : String)
  | rateLimited
  | transient
  | permanent
  | authOrConfig
  | ambiguous
  deriving DecidableEq

/-- A local validation failure before any provider effect is possible. -/
inductive DriverError
  | invalidEndpoint
  | invalidDelivery
  deriving DecidableEq

/-- The result of one read. -/
inductive ReadResult
  | chunk (bytes : List UInt8) (size : bytes.length ≤ 1024)
  | failed

/-- One read of the response, with the deadline check in front of it. -/
structure Turn where
  late : Bool
  read : ReadResult

/-- The behaviour of the network and of the provider in one attempt. -/
structure Peer where
  /-- The host name resolves to at least one address. -/
  resolves : Bool
  connects : Bool
  /-- Both socket timeouts can be set. -/
  timeoutsSet : Bool
  /-- The trust anchor is added, the server name is well formed and the TLS client is built. -/
  tlsReady : Bool
  /-- `write_all` and `flush` succeed. -/
  writes : Bool
  turns : List Turn

/-- An arithmetic overflow, which ends the process. -/
inductive Panic
  | subtractOverflow
  deriving DecidableEq

/-- A finished attempt: its result, and the request bytes that were handed to the transport. -/
structure Attempt where
  result : Except Panic (Except DriverError DeliveryOutcome)
  handed : List UInt8

/-- An attempt that ended before `write_all`. -/
def Attempt.unsent (result : Except DriverError DeliveryOutcome) : Attempt := ⟨.ok result, []⟩

/-- The acknowledgement texts that both drivers take. -/
def validAcknowledgement (value : String) : Bool :=
  !value.isEmpty && value.utf8ByteSize ≤ 256 && !value.toList.contains '\x00'

/-- The blank line after a header section. -/
def blankLine : List UInt8 := [0x0d, 0x0a, 0x0d, 0x0a]

end MsgRiver.Connector
