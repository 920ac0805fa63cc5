import Bitmagnet.Dht.Compact

/-!
# KRPC messages

The message types of `krpc.rs`, the projection of Go's `dht.Msg` that the crawler
sends and accepts.
-/

namespace Bitmagnet.Dht

/-- `i64`. -/
abbrev I64 := { n : Int // -2 ^ 63 ≤ n ∧ n < 2 ^ 63 }

/-- The default of an `i64` field. -/
def I64.zero : I64 := ⟨0, by decide⟩

/-- `MessageArgs`. -/
@[ext] structure MessageArgs where
  id : Id20
  infoHash : Option Id20
  target : Option Id20
  token : ByteString
  port : Option I64
  impliedPort : Bool
  want : Option (List ByteString)
  noSeed : I64
  scrape : I64
deriving DecidableEq

/-- `MessageReturn`. -/
@[ext] structure MessageReturn where
  id : Id20
  nodes : Option (List CompactNode)
  nodes6 : Option (List CompactNode)
  token : Option ByteString
  values : Option (List CompactAddr)
  interval : Option I64
  num : Option I64
  samples : Option (List Id20)
  seedersBloom : Option ScrapeBloomFilter
  peersBloom : Option ScrapeBloomFilter
deriving DecidableEq

/-- `KrpcError`. -/
structure KrpcError where
  code : I64
  message : ByteString
deriving DecidableEq

/-- `KrpcMessage`. -/
@[ext] structure KrpcMessage where
  transactionId : ByteString
  messageType : ByteString
  query : ByteString
  args : Option MessageArgs
  response : Option MessageReturn
  error : Option KrpcError
  observedAddr : Option CompactAddr
  readOnly : Bool
  clientId : ByteString
deriving DecidableEq

end Bitmagnet.Dht
