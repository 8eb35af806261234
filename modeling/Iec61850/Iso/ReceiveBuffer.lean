import Iec61850.Lib.Memory

/-! The buffer that both sides receive transport messages into. -/

namespace Iec61850

open Machine

/-- What the messages do not decide: local variables that nothing has been written to, and what
the receive buffer holds behind a message. -/
structure IsoEnvironment where
  uninitialised : Int
  behind : Int → UInt8

/-- `RECEIVE_BUF_SIZE` and `ISO_CLIENT_BUFFER_SIZE` -/
def isoBufferSize : Nat := 16100

def IsoEnvironment.receiveBuffer (env : IsoEnvironment) (message : List UInt8) : Memory :=
  fun pos =>
    if pos < 0 ∨ isoBufferSize ≤ pos then none else some (message.getD pos.toNat (env.behind pos))

end Iec61850
