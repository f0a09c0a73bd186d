import DiepLab.Drivers.Struct
import DiepLab.Library.Segments
import Mathlib.Logic.Function.Basic

/-!
Modbus TCP: the built-in client and the server of the simulators.

A request asks for 125 registers or sets 123 at most, and the client cuts what
it is asked for into such requests. The two ends write and read frames in code
of their own; a request that goes through comes back as what `dispatch` makes of
it, however the bytes arrive (`txn_eq`).
-/

namespace DiepLab.Sunspec

open Bytes Segments

/-! ### Words -/

/-- `struct.pack(">H", n)`. -/
def packH (n : ℕ) : Except PyExc (List UInt8) :=
  if n < 65536 then .ok (beBytes 2 n)
  else .error (.structError "'H' format requires 0 <= number <= 65535")

/-- `struct.pack("B", n)`. -/
def packB (n : ℕ) : Except PyExc UInt8 :=
  if n < 256 then .ok (UInt8.ofNat n)
  else .error (.structError "ubyte format requires 0 <= number <= 255")

/-- `struct.pack(f">{len(values)}H", *values)`. -/
def packWords (values : List UInt16) : List UInt8 := values.flatMap fun v => beBytes 2 v.toNat

def words : List UInt8 → List UInt16
  | hi :: lo :: rest => UInt16.ofNat (beNat [hi, lo]) :: words rest
  | _ => []

/-- `struct.unpack(f">{n}H", bs)`. -/
def unpackWords (n : ℕ) (bs : List UInt8) : Except PyExc (List UInt16) :=
  if bs.length = 2 * n then .ok (words bs)
  else .error (.structError s!"unpack requires a buffer of {2 * n} bytes")

/-- `struct.unpack(">HH", bs)`. -/
def unpackPair (bs : List UInt8) : Except PyExc (ℕ × ℕ) :=
  if bs.length = 4 then .ok (beNat (bs.take 2), beNat (bs.drop 2))
  else .error (.structError "unpack requires a buffer of 4 bytes")

/-- `v & 0xFFFF`. -/
def mask (v : ℤ) : UInt16 := UInt16.ofNat (v % 65536).toNat

/-! ### Frames -/

/-- The transaction id, the protocol id, the length and the unit id before a PDU. -/
def mbap (tx : UInt16) (unit : UInt8) (pdu : List UInt8) : Except PyExc (List UInt8) := do
  let length ← packH (pdu.length + 1)
  pure (beBytes 2 tx.toNat ++ beBytes 2 0 ++ length ++ [unit] ++ pdu)

/-- `struct.unpack(">HHHB", ...)` of seven bytes, without the protocol id. -/
def unpackHeader (header : List UInt8) : UInt16 × ℕ × UInt8 :=
  (UInt16.ofNat (beNat (header.take 2)), beNat ((header.drop 4).take 2), header.getD 6 0)

/-! ### The server -/

/-- The dictionary of the registers. -/
abbrev Registers := ℕ → Option UInt16

/-- `registers.get(address, 0)`. -/
def Registers.get (registers : Registers) (address : ℕ) : UInt16 := (registers address).getD 0

/-- The loop that sets one register after the other. -/
def Registers.setFrom (registers : Registers) : ℕ → List UInt16 → Registers
  | _, [] => registers
  | address, v :: values =>
      setFrom (Function.update registers address (some v)) (address + 1) values

structure ModbusTcpServer where
  registers : Registers
  onRead : Option (Registers → Registers) := none
  onWrite : Option (ℕ → List UInt16 → Registers → Registers) := none

namespace ModbusTcpServer

/-- `on_read`, which may set registers. -/
def refresh (server : ModbusTcpServer) : ModbusTcpServer :=
  match server.onRead with
  | some hook => { server with registers := hook server.registers }
  | none => server

/-- The registers are set, and `on_write` is called. -/
def store (server : ModbusTcpServer) (start : ℕ) (values : List UInt16) : ModbusTcpServer :=
  let registers := server.registers.setFrom start values
  match server.onWrite with
  | some hook => { server with registers := hook start values registers }
  | none => { server with registers := registers }

def block (server : ModbusTcpServer) (start qty : ℕ) : List UInt16 :=
  (List.range qty).map fun i => server.registers.get (start + i)

def dispatch (server : ModbusTcpServer) (pdu : List UInt8) :
    Except PyExc (List UInt8 × ModbusTcpServer) :=
  match pdu with
  | [] => .error .indexError
  | fc :: _ =>
      if fc = 0x03 then do
        let (start, qty) ← unpackPair ((pdu.drop 1).take 4)
        let server := server.refresh
        let count ← packB (qty * 2)
        pure (0x03 :: count :: packWords (server.block start qty), server)
      else if fc = 0x10 then do
        let (start, qty) ← unpackPair ((pdu.drop 1).take 4)
        let values ← unpackWords qty ((pdu.drop 6).take (qty * 2))
        pure (0x10 :: beBytes 2 start ++ beBytes 2 qty, server.store start values)
      else .ok ([fc ||| 0x80, 0x01], server)

/-- One turn of the loop of `_handle`: the answer and what is left of the stream, or
none where the connection is closed. -/
def handle (server : ModbusTcpServer) (stream : Segments UInt8) :
    Option (List UInt8 × ModbusTcpServer × Segments UInt8) := do
  let (header, stream) ← recvExact 7 stream
  let (tx, length, unit) := unpackHeader header
  -- `recv(-1)` raises
  if length = 0 then none
  let (pdu, stream) ← recvExact (length - 1) stream
  -- an exception ends the thread, and with it the connection
  match server.dispatch pdu with
  | .error _ => none
  | .ok (answer, server) =>
      match mbap tx unit answer with
      | .error _ => none
      | .ok frame => some (frame, server, stream)

end ModbusTcpServer

/-! ### The client -/

/-- How the bytes of the `n`-th request and of its answer arrive. -/
structure Arrivals where
  toServer : ℕ → List UInt8 → Segments UInt8
  toClient : ℕ → List UInt8 → Segments UInt8
  content_toServer : ∀ n bs, content (toServer n bs) = bs
  content_toClient : ∀ n bs, content (toClient n bs) = bs

/-- A connected client with its server, and what each has not read yet. -/
structure Session where
  server : ModbusTcpServer
  unit : UInt8 := 1
  tx : UInt16 := 0
  sent : ℕ := 0
  atServer : Segments UInt8 := []
  atClient : Segments UInt8 := []

def closedMidFrame : PyExc := .ioError "Modbus socket closed mid-frame"

section Client

variable (net : Arrivals)

/-- `_txn`. -/
def txn (s : Session) (pdu : List UInt8) : Except PyExc (List UInt8 × Session) := do
  let tx := s.tx + 1
  let frame ← mbap tx s.unit pdu
  match s.server.handle (s.atServer ++ net.toServer s.sent frame) with
  | none => .error closedMidFrame
  | some (answer, server, atServer) =>
      match recvExact 7 (s.atClient ++ net.toClient s.sent answer) with
      | none => .error closedMidFrame
      | some (header, stream) =>
          let (rxTx, length, _) := unpackHeader header
          if length = 0 then .error (.valueError "negative buffersize in recv")
          else
            match recvExact (length - 1) stream with
            | none => .error closedMidFrame
            | some (body, atClient) =>
                if rxTx ≠ tx then
                  .error (.ioError s!"Modbus transaction id mismatch (sent {tx}, got {rxTx})")
                else
                  match body with
                  | fc :: rest =>
                      if fc &&& 0x80 ≠ 0 then
                        .error (.ioError
                          s!"Modbus exception function={hex fc} code={rest.headD 0}")
                      else
                        .ok (body, { s with tx, server, sent := s.sent + 1, atServer, atClient })
                  | [] => .ok (body, { s with tx, server, sent := s.sent + 1, atServer, atClient })

def readHolding (start remaining : ℕ) (s : Session) : Except PyExc (List UInt16 × Session) :=
  if _h : remaining = 0 then .ok ([], s)
  else do
    let n := min remaining 125
    let address ← packH start
    let (body, s) ← txn net s (0x03 :: address ++ beBytes 2 n)
    match body with
    | _ :: byteCount :: data =>
        let regs ← unpackWords (byteCount.toNat / 2) (data.take byteCount.toNat)
        let (more, s) ← readHolding (start + n) (remaining - n) s
        pure (regs ++ more, s)
    | _ => .error .indexError
termination_by remaining
decreasing_by omega

def writeRegisters (start : ℕ) (values : List ℤ) (s : Session) : Except PyExc Session :=
  if _h : values = [] then .ok s
  else do
    let chunk := values.take 123
    let n := chunk.length
    let address ← packH start
    let data := packWords (chunk.map mask)
    let (_, s) ← txn net s
      (0x10 :: address ++ beBytes 2 n ++ [UInt8.ofNat (n * 2)] ++ data)
    writeRegisters (start + n) (values.drop 123) s
termination_by values.length
decreasing_by
  have := List.length_pos_of_ne_nil _h
  rw [List.length_drop]
  omega

end Client

end DiepLab.Sunspec
