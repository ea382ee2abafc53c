import Avon.Common
import Avon.Crypto.Primitives
import Avon.Lib.Hex

/-!
# Messages that several parts exchange

The messages of `proto/avon/v2` that more than one modelled component reads or writes. A
message is what the decoder gives: a number of an enumeration may be any `i32`, and an id may
have any length.
-/

set_option autoImplicit false

namespace Avon.Proto

open Avon.Crypto Avon.Lib.BigEndian

def uuidBytes (id : Uuid) : Bytes := beBytes 16 id.toNat

def uuidOf (bytes : Bytes) : Option Uuid :=
  if bytes.length = 16 then some (BitVec.ofNat 128 (ofBe bytes)) else none

/-- The text of an id: hexadecimal, in groups of 8, 4, 4, 4 and 12 digits. -/
def uuidText (id : Uuid) : String :=
  let h := Lib.Hex.encode (uuidBytes id)
  String.ofList (h.take 8 ++ '-' :: (h.drop 8).take 4 ++ '-' :: (h.drop 12).take 4 ++
    '-' :: (h.drop 16).take 4 ++ '-' :: h.drop 20)

structure Candidate where
  address : String
  priority : UInt32
  kind : String
  deriving DecidableEq, Repr

structure SessionAnswer where
  sessionId : Bytes
  ctE : Bytes
  ctS : Bytes
  responderIndex : UInt32
  responderEndpoint : String
  suite : ℤ
  signature : Bytes
  deriving DecidableEq, Repr

end Avon.Proto
