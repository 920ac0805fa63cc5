import Bitmagnet.Dht.Krpc
import Bitmagnet.Library.Bencode

/-!
# Encoding KRPC messages

The model of `encode` in `krpc.rs`: the fields that are there are inserted into an
ordered map, in the order of the source, and the map is handed to the `bendy`
encoder.  That encoder is a parameter: it takes the nesting limit set by
`with_max_depth` and a value, and returns bytes or the text of its error.
-/

namespace Bitmagnet.Dht

open Bencode (Value Key)
open SortedMap (ofEntries)

/-- `WireError`, the cases `encode` reports. -/
inductive WireError
  | bencode (reason : String)
  | compact (source : CompactCodecError)
deriving DecidableEq

/-- The `bendy` encoder: a nesting limit, a value, and bytes or an error. -/
abbrev Encoder := Nat → Value → Except String (List UInt8)

/-- What the encoder documents: canonical bencode of every value within the limit. -/
def Encoder.Canonical (emit : Encoder) : Prop :=
  ∀ depth value, value.Within depth → emit depth value = .ok (Bencode.encode value)

/-- `key`. -/
def wireKey (name : List Char) : Key := ⟨name.map fun c => UInt8.ofNat c.toNat⟩

/-- An `i64` that is sent only where it is not zero. -/
def nonZero (n : I64) : Option Value := if n = I64.zero then none else some (.integer n)

/-- A byte string that is sent only where it is not empty. -/
def nonEmpty (bytes : ByteString) : Option Value :=
  if bytes.isEmpty then none else some (.bytes bytes)

/-- A flag that is sent as `1` where it is set. -/
def flag (set : Bool) : Option Value := if set then some (.integer 1) else none

/-- `encode_args`. -/
def encodeArgs (args : MessageArgs) : Value :=
  .dict (ofEntries [
    (wireKey ['i', 'd'], some (.bytes args.id.bytes)),
    (wireKey ['i', 'n', 'f', 'o', '_', 'h', 'a', 's', 'h'],
      (args.infoHash.filter (· ≠ Id20.zero)).map fun value => .bytes value.bytes),
    (wireKey ['t', 'a', 'r', 'g', 'e', 't'],
      (args.target.filter (· ≠ Id20.zero)).map fun value => .bytes value.bytes),
    (wireKey ['t', 'o', 'k', 'e', 'n'], nonEmpty args.token),
    (wireKey ['p', 'o', 'r', 't'], args.port.map fun value => .integer value.val),
    (wireKey ['i', 'm', 'p', 'l', 'i', 'e', 'd', '_', 'p', 'o', 'r', 't'], flag args.impliedPort),
    (wireKey ['w', 'a', 'n', 't'], args.want.map fun want => .list (want.map .bytes)),
    (wireKey ['n', 'o', 's', 'e', 'e', 'd'], nonZero args.noSeed),
    (wireKey ['s', 'c', 'r', 'a', 'p', 'e'], nonZero args.scrape)])

/-- `encode_nodes` of a list that may be absent. -/
def encodeNodesField (nodes : Option (List CompactNode)) (ipv6 : Bool) :
    Outcome CompactCodecError (Option (List UInt8)) :=
  match nodes with
  | none => .ok none
  | some nodes => some <$> encodeNodes nodes ipv6

/-- `encode_return`. -/
def encodeReturn (value : MessageReturn) : Outcome CompactCodecError Value := do
  let nodes ← encodeNodesField value.nodes false
  let nodes6 ← encodeNodesField value.nodes6 true
  pure (.dict (ofEntries [
    (wireKey ['i', 'd'], some (.bytes value.id.bytes)),
    (wireKey ['B', 'F', 's', 'd'], value.seedersBloom.map fun filter => .bytes filter.val),
    (wireKey ['B', 'F', 'p', 'e'], value.peersBloom.map fun filter => .bytes filter.val),
    (wireKey ['n', 'o', 'd', 'e', 's'], nodes.map .bytes),
    (wireKey ['n', 'o', 'd', 'e', 's', '6'], nodes6.map .bytes),
    (wireKey ['t', 'o', 'k', 'e', 'n'], value.token.map .bytes),
    (wireKey ['v', 'a', 'l', 'u', 'e', 's'],
      value.values.map fun values => .list (values.map fun addr => .bytes addr.encode)),
    (wireKey ['i', 'n', 't', 'e', 'r', 'v', 'a', 'l'], value.interval.map fun n => .integer n.val),
    (wireKey ['n', 'u', 'm'], value.num.map fun n => .integer n.val),
    (wireKey ['s', 'a', 'm', 'p', 'l', 'e', 's'],
      value.samples.map fun samples => .bytes (encodeSamples samples))]))

/-- `encode_error`. -/
def encodeError (error : KrpcError) : Value := .list [.integer error.code, .bytes error.message]

/-- `encode_return` of a response that may be absent. -/
def encodeResponse (response : Option MessageReturn) : Outcome CompactCodecError (Option Value) :=
  match response with
  | none => .ok none
  | some response => some <$> encodeReturn response

namespace KrpcMessage

/-- The dictionary of a message, around its encoded response. -/
def toValue (m : KrpcMessage) (response : Option Value) : Value :=
  .dict (ofEntries [
    (wireKey ['t'], some (.bytes m.transactionId)),
    (wireKey ['y'], some (.bytes m.messageType)),
    (wireKey ['q'], nonEmpty m.query),
    (wireKey ['a'], m.args.map encodeArgs),
    (wireKey ['r'], response),
    (wireKey ['e'], m.error.map encodeError),
    (wireKey ['i', 'p'], m.observedAddr.map fun addr => .bytes addr.encode),
    (wireKey ['r', 'o'], flag m.readOnly),
    (wireKey ['v'], nonEmpty m.clientId)])

/-- `KrpcMessage::encode`. -/
def encode (emit : Encoder) (m : KrpcMessage) : Outcome WireError (List UInt8) := do
  let response ← (encodeResponse m.response).mapError .compact
  match emit 3 (m.toValue response) with
  | .ok bytes => pure bytes
  | .error reason => .error (.bencode reason)

end KrpcMessage

end Bitmagnet.Dht
