import ChatGames.Library.LengthPrefix

/-!
# Byte orders

How an unsigned integer of a fixed width lies in the memory of a host, and what is to be done with
it so that it lies there in network byte order.
-/

inductive ByteOrder where
  | little
  | big
deriving DecidableEq, Repr

/-- The value whose bytes stand the other way round. -/
def byteSwap (width val : Nat) : Nat := ofBigEndian (toBigEndian width val).reverse

theorem toBigEndian_byteSwap (width val : Nat) :
    toBigEndian width (byteSwap width val) = (toBigEndian width val).reverse := by
  have hlength : (toBigEndian width val).reverse.length = width := by
    rw [List.length_reverse, toBigEndian_length]
  have hbytes := toBigEndian_ofBigEndian (toBigEndian width val).reverse
  rwa [hlength] at hbytes

theorem byteSwap_ofBigEndian (bytes : List UInt8) :
    byteSwap bytes.length (ofBigEndian bytes) = ofBigEndian bytes.reverse := by
  rw [byteSwap, toBigEndian_ofBigEndian]

namespace ByteOrder

/-- The bytes of a value, from the lowest address on. -/
def store (host : ByteOrder) (width val : Nat) : List UInt8 :=
  match host with
  | .little => (toBigEndian width val).reverse
  | .big => toBigEndian width val

def load (host : ByteOrder) (bytes : List UInt8) : Nat :=
  match host with
  | .little => ofBigEndian bytes.reverse
  | .big => ofBigEndian bytes

/-- From host to network byte order, and back. -/
def toNetwork (host : ByteOrder) (width val : Nat) : Nat :=
  match host with
  | .little => byteSwap width val
  | .big => val

theorem store_toNetwork (host : ByteOrder) (width val : Nat) :
    host.store width (host.toNetwork width val) = toBigEndian width val := by
  cases host with
  | little => rw [store, toNetwork, toBigEndian_byteSwap, List.reverse_reverse]
  | big => rfl

theorem toNetwork_load (host : ByteOrder) (bytes : List UInt8) :
    host.toNetwork bytes.length (host.load bytes) = ofBigEndian bytes := by
  cases host with
  | little =>
      have hswap := byteSwap_ofBigEndian bytes.reverse
      rwa [List.length_reverse, List.reverse_reverse] at hswap
  | big => rfl

theorem store_one (host : ByteOrder) (val : Nat) : host.store 1 val = toBigEndian 1 val := by
  cases host <;> rfl

theorem load_singleton (host : ByteOrder) (byte : UInt8) :
    host.load [byte] = ofBigEndian [byte] := by
  cases host <;> rfl

end ByteOrder
