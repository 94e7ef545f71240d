import Mathlib.Algebra.Ring.Nat
import ImServer.Base.ImPdu

/-!
# A connection and its two buffers

`CImConn` (base/imconn.cpp) collects received bytes in `m_in_buf`, cuts PDUs off
their front, and keeps in `m_out_buf` what the socket did not take yet. The
results of `netlib_recv` and `netlib_send` belong to the environment and are
inputs of the model: a read event brings a list of nonempty chunks, a send or
write event a list of amounts that the socket would accept. A list that is
exhausted stands for a call that would block, and so does an amount that is not
positive.

The parsing loop of `OnRead` is given a number of iterations. `Stop.running`
says that they did not suffice, so nothing about termination is built in.
-/

namespace ImServer

abbrev readBufSize : Nat := 2048

abbrev netlibMaxSocketBufSize : Int := 128 * 1024

/-- What one successful `netlib_recv` of `READ_BUF_SIZE` bytes may bring. -/
structure Chunk where
  data : List UInt8
  nonempty : 0 < data.length
  bounded : data.length ≤ readBufSize

/-- A PDU passed to `HandlePdu`, and the bytes removed from `m_in_buf` for it. -/
structure Delivery where
  pdu : CImPdu
  removed : List UInt8

/-- How the parsing loop ended: `closed` when it caught a `CPduException` and
called `OnClose`. -/
structure Parsed where
  deliveries : List Delivery
  buf : CSimpleBuffer
  closed : Bool

structure CImConn where
  handle : Int := -1
  busy : Bool := false
  inBuf : CSimpleBuffer := {}
  outBuf : CSimpleBuffer := {}
  recvBytes : Nat := 0

namespace CImConn

/-- The free space test in front of every `netlib_recv`. The difference is a
`uint32_t`. -/
def makeRoom (b : CSimpleBuffer) : CSimpleBuffer :=
  if u32 (b.allocSize + 2 ^ 32 - b.writeOffset) < readBufSize then b.extend readBufSize else b

/-- The receiving loop. The last `netlib_recv`, which brings nothing, is preceded
by the free space test as well. -/
def recvLoop (b : CSimpleBuffer) : List Chunk → Exec CSimpleBuffer
  | [] => return makeRoom b
  | chunk :: chunks => do
    let b ← (makeRoom b).poke b.writeOffset chunk.data
    recvLoop { b with writeOffset := u32 (b.writeOffset + chunk.data.length) } chunks

/-- One iteration of the parsing loop, `none` when `ReadPdu` returns null. The
removed bytes are recorded; the source calls `Read` with a null destination. -/
def parseStep (handle : Int) (b : CSimpleBuffer) : Exec (Option (Delivery × CSimpleBuffer)) := do
  match ← CImPdu.readPdu b.buffer b.writeOffset with
  | none => return none
  | some p =>
    let (removed, b') ← b.read p.getLength
    return some (⟨{ p with sockHandle := some handle }, removed⟩, b')

/-- The parsing loop with its exception handler, for at most `fuel` calls of
`ReadPdu`. -/
def parseLoop (handle : Int) : Nat → CSimpleBuffer → Exec Parsed
  | 0, _ => .error .running
  | fuel + 1, b =>
    match parseStep handle b with
    | .error (.pduException _ _) => .ok ⟨[], b, true⟩
    | .error e => .error e
    | .ok none => .ok ⟨[], b, false⟩
    | .ok (some (d, b')) => do
      let r ← parseLoop handle fuel b'
      return { r with deliveries := d :: r.deliveries }

/-- `OnRead`, with the PDUs it hands to `HandlePdu`. The loop over them gets fuel, since it need not
end. -/
def onRead (fuel : Nat) (conn : CImConn) (chunks : List Chunk) :
    Exec (List Delivery × CImConn) := do
  let b ← recvLoop conn.inBuf chunks
  let r ← parseLoop conn.handle fuel b
  return (r.deliveries, { conn with
    inBuf := r.buf
    recvBytes := u32 (conn.recvBytes + (chunks.map (·.data.length)).sum) })

/-- A sequence of read events. -/
def onReads (fuel : Nat) : CImConn → List (List Chunk) → Exec (List Delivery × CImConn)
  | conn, [] => return ([], conn)
  | conn, chunks :: calls => do
    let (ds, conn) ← onRead fuel conn chunks
    let (ds', conn) ← onReads fuel conn calls
    return (ds ++ ds', conn)

/-- A `uint32_t` read as an `int`. -/
def i32 (n : Nat) : Int := if n < 2 ^ 31 then n else n - 2 ^ 32

/-- The size passed to one `netlib_send`. -/
def sendSize (n : Int) : Int := if n > netlibMaxSocketBufSize then netlibMaxSocketBufSize else n

/-- The largest amount one `send` transfers. -/
abbrev maxRwCount : Int := 0x7ffff000

/-- The result of `netlib_send` for a socket that would take `room` bytes. A
negative size is a huge `size_t`, of which the kernel takes `maxRwCount` at most. -/
def netlibSend (size room : Int) : Int := min room (if size < 0 then maxRwCount else size)

/-- The loop of `Send`: the bytes the socket accepted and those that remain. -/
def sendLoop (remain : List UInt8) : List Int → List UInt8 × List UInt8
  | [] => ([], remain)
  | room :: rooms =>
    if remain = [] then ([], remain)
    else
      let ret := netlibSend (sendSize remain.length) room
      if ret ≤ 0 then ([], remain)
      else
        let r := sendLoop (remain.drop ret.toNat) rooms
        (remain.take ret.toNat ++ r.1, r.2)

/-- `Send`, with the bytes the socket accepted. -/
def send (conn : CImConn) (data : List UInt8) (rooms : List Int) :
    Exec (List UInt8 × CImConn) := do
  if conn.busy then
    let outBuf ← conn.outBuf.write data
    return ([], { conn with outBuf })
  let (accepted, remain) := sendLoop data rooms
  if remain = [] then
    return (accepted, conn)
  let outBuf ← conn.outBuf.write remain
  return (accepted, { conn with outBuf, busy := true })

/-- The loop of `OnWrite`. -/
def writeLoop (b : CSimpleBuffer) : List Int → Exec (List UInt8 × CSimpleBuffer)
  | [] => return ([], b)
  | room :: rooms => do
    if b.writeOffset = 0 then
      return ([], b)
    let ret := netlibSend (sendSize (i32 b.writeOffset)) room
    if ret ≤ 0 then
      return ([], b)
    let (data, b) ← b.read ret.toNat
    let (accepted, b) ← writeLoop b rooms
    return (data ++ accepted, b)

/-- `OnWrite`, with the bytes the socket accepted. -/
def onWrite (conn : CImConn) (rooms : List Int) : Exec (List UInt8 × CImConn) := do
  if !conn.busy then
    return ([], conn)
  let (accepted, outBuf) ← writeLoop conn.outBuf rooms
  if outBuf.writeOffset = 0 then
    return (accepted, { conn with outBuf, busy := false })
  return (accepted, { conn with outBuf })

end CImConn

end ImServer
