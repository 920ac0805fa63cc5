import Bitmagnet.Dht.Inbound
import Bitmagnet.Library.Bencode
import Bitmagnet.Metainfo.Info

/-!
# Requesting metadata from a peer

`peer_wire_meta_info_requester.rs`: one connection to a peer, from the BitTorrent
handshake to the verified info dictionary.

What the peer sends is a list of bytes and the I/O error reading ends in after them,
so a run over an endless stream is, up to any byte of it, a run of the model.  The
state also logs the size of every frame buffer that is allocated, which no function
reads.  Index and slice errors, unsigned underflow and `expect` are faults.

`tokio`'s timeouts stop a request between two reads and are not modelled: a request
that is stopped returns nothing.
-/

namespace Bitmagnet.Crawler

open Bytes (Fixed slice?)
open Dht (Id20 I64)
open Dht.Inbound (parseI64 usizeLimit)
open Scan (update fail fault lift ensure iterate)

/-- `DHT_PEER_WIRE_MAX_METADATA_SIZE`. -/
def maxMetadataSize : Nat := 10 * 1024 * 1024

/-- `DHT_PEER_WIRE_METADATA_PIECE_SIZE`. -/
def metadataPieceSize : Nat := 16 * 1024

/-- `DHT_PEER_WIRE_LOCAL_UT_METADATA_ID`. -/
def localUtMetadataId : UInt8 := 1

/-- `HANDSHAKE_SIZE`. -/
def handshakeSize : Nat := 68

/-- `MAX_BENCODE_NESTING_DEPTH`. -/
def maxBencodeNestingDepth : Nat := 64

/-- `EXTENDED_MESSAGE_ID`. -/
def extendedMessageId : UInt8 := 20

/-- `EXTENSION_HANDSHAKE_ID`. -/
def extensionHandshakeId : UInt8 := 0

/-- `PROTOCOL`. -/
def protocol : List UInt8 := 0x13 :: asciiBytes "BitTorrent protocol"

/-- `ADVERTISED_EXTENSION_BITS`. -/
def advertisedExtensionBits : List UInt8 := [0, 0, 0, 0, 0, 0x10, 0, 0x01]

/-- `EXTENSION_HANDSHAKE_REQUEST`. -/
def extensionHandshakeRequest : List UInt8 :=
  [0, 0, 0, 0x1a, 0x14, 0] ++ asciiBytes "d1:md11:ut_metadatai1eee"

/-- `SocketAddrV4`. -/
structure SocketAddrV4 where
  ip : Fixed UInt8 4
  port : UInt16
deriving DecidableEq

/-- `io::Error`: the end of the stream, or an error of the system. -/
inductive IoError
  | unexpectedEof
  | os (code : Int)
deriving DecidableEq

/-- `DhtPeerWireMetaInfoRequesterStage`. -/
inductive DhtPeerWireMetaInfoRequesterStage
  | bitTorrentHandshakeWrite
  | bitTorrentHandshakeRead
  | extensionHandshakeWrite
  | messageLengthRead
  | messageBodyRead
  | metadataRequestWrite
deriving DecidableEq

/-- `DhtPeerWireMetaInfoRequesterError`, without the cases of connecting and of the
timeouts. -/
inductive DhtPeerWireMetaInfoRequesterError
  | io (peer : SocketAddrV4) (stage : DhtPeerWireMetaInfoRequesterStage) (source : IoError)
  | invalidHandshakeProtocol
  | extensionProtocolUnsupported
  | infoHashMismatch
  | firstExtensionMessageNotHandshake (actual : UInt8)
  | bencode (error : BendyError)
  | protocolBencode (message : String)
  | missingExtensionHandshakeField (field : String)
  | invalidIntegerType (field : String)
  | invalidIntegerValue (field : String) (value : List UInt8)
  | invalidMetadataSize (size : I64)
  | invalidRemoteUtMetadataId (id : I64)
  | messageTooLong (length : Nat)
  | missingMetadataMessageField (field : String)
  | metadataRejected (piece : I64)
  | invalidPieceIndex (piece : I64) (pieceCount : Nat)
  | duplicatePiece (piece : Nat)
  | invalidPieceLength (piece actual expected : Nat)
  | metadataTotalSizeMismatch (actual : I64) (expected : Nat)
  | parse (error : ParseInfoError)
deriving DecidableEq

/-! ## The stream -/

/-- One connection.  `unread` is what the peer will still send and `readEnd` the error
behind it; writing succeeds for `writeRoom` more bytes and then ends in `writeEnd`. -/
structure PeerStream where
  unread : List UInt8
  readEnd : IoError
  written : List UInt8
  writeRoom : Nat
  writeEnd : IoError
  /-- the sizes of the frame buffers allocated so far, latest first -/
  frames : List Nat

abbrev PeerWire := Scan PeerStream DhtPeerWireMetaInfoRequesterError

/-- The stream behind its first `n` bytes. -/
def PeerStream.consume (s : PeerStream) (n : Nat) : PeerStream :=
  { s with unread := s.unread.drop n }

/-- A frame buffer of `n` bytes. -/
def PeerStream.allocate (s : PeerStream) (n : Nat) : PeerStream :=
  { s with frames := n :: s.frames }

@[simp] lemma PeerStream.consume_unread (s : PeerStream) (n : Nat) :
    (s.consume n).unread = s.unread.drop n := rfl

@[simp] lemma PeerStream.consume_frames (s : PeerStream) (n : Nat) :
    (s.consume n).frames = s.frames := rfl

@[simp] lemma PeerStream.allocate_unread (s : PeerStream) (n : Nat) :
    (s.allocate n).unread = s.unread := rfl

@[simp] lemma PeerStream.allocate_frames (s : PeerStream) (n : Nat) :
    (s.allocate n).frames = n :: s.frames := rfl

/-- `read_exact` into a buffer of `n` bytes. -/
def readExact (peer : SocketAddrV4) (stage : DhtPeerWireMetaInfoRequesterStage) (n : Nat) :
    PeerWire (List UInt8) := fun s =>
  if n ≤ s.unread.length then (.ok (s.unread.take n), s.consume n)
  else (.error (.io peer stage s.readEnd), s.consume s.unread.length)

/-- `write_all`. -/
def writeAll (peer : SocketAddrV4) (stage : DhtPeerWireMetaInfoRequesterStage)
    (bytes : List UInt8) : PeerWire Unit := fun s =>
  if bytes.length ≤ s.writeRoom then
    (.ok (), { s with written := s.written ++ bytes, writeRoom := s.writeRoom - bytes.length })
  else
    (.error (.io peer stage s.writeEnd),
      { s with written := s.written ++ bytes.take s.writeRoom, writeRoom := 0 })

/-- `u32::from_be_bytes`. -/
def u32FromBeBytes (bytes : List UInt8) : Nat := bytes.foldl (fun n b => n * 256 + b.toNat) 0

/-- `u32::to_be_bytes`. -/
def u32ToBeBytes (n : Nat) : List UInt8 :=
  [UInt8.ofNat (n / 2 ^ 24), UInt8.ofNat (n / 2 ^ 16), UInt8.ofNat (n / 2 ^ 8), UInt8.ofNat n]

/-- `read_message`. -/
def readMessage (peer : SocketAddrV4) : PeerWire (List UInt8) := do
  let lengthBytes ← readExact peer .messageLengthRead 4
  let length := u32FromBeBytes lengthBytes
  ensure (length ≤ maxMetadataSize) (.messageTooLong length)
  update (·.allocate length)
  readExact peer .messageBodyRead length

/-! ## Handshakes -/

/-- `handshake_request`. -/
def handshakeRequest (infoHash peerId : Id20) : List UInt8 :=
  protocol ++ advertisedExtensionBits ++ infoHash.bytes ++ peerId.bytes

/-- `perform_bit_torrent_handshake`. -/
def performBitTorrentHandshake (peer : SocketAddrV4) (infoHash peerId : Id20) :
    PeerWire (List UInt8) := do
  writeAll peer .bitTorrentHandshakeWrite (handshakeRequest infoHash peerId)
  let response ← readExact peer .bitTorrentHandshakeRead handshakeSize
  ensure ((← lift (.ofOption (slice? response 0 20))) = protocol) .invalidHandshakeProtocol
  ensure ((← lift (.ofOption response[25]?)) &&& 0x10 ≠ 0) .extensionProtocolUnsupported
  ensure ((← lift (.ofOption (slice? response 28 48))) = infoHash.bytes) .infoHashMismatch
  lift (.ofOption (slice? response 48 response.length))

/-- `.map_err(bencode_error)?`. -/
def bencodeResult {α : Type} (x : Except BendyError α) :
    Outcome DhtPeerWireMetaInfoRequesterError α :=
  match x with
  | .ok a => .ok a
  | .error error => .error (.bencode error)

/-- The end of `while let Some(..) = next_pair()?`. -/
def pairsEnd (broken : Option BendyError) : Outcome DhtPeerWireMetaInfoRequesterError Unit :=
  match broken with
  | none => .ok ()
  | some error => .error (.bencode error)

/-- `parse_integer`. -/
def parseInteger (value : Object) (field : String) :
    Outcome DhtPeerWireMetaInfoRequesterError I64 :=
  match value with
  | .integer text =>
    match parseI64 text with
    | some n => .ok n
    | none => .error (.invalidIntegerValue field text)
  | _ => .error (.invalidIntegerType field)

/-- `ExtensionHandshake`. -/
structure ExtensionHandshake where
  metadataSize : Nat
  remoteUtMetadataId : UInt8
deriving DecidableEq

/-- One pair of the dictionary under `m`. -/
def extensionPair (found : Option I64) (pair : List UInt8 × Object) :
    Outcome DhtPeerWireMetaInfoRequesterError (Option I64) :=
  if pair.1 = asciiBytes "ut_metadata" then some <$> parseInteger pair.2 "m.ut_metadata"
  else .ok found

/-- One pair of the root, with the size and the identifier found so far. -/
def handshakePair (found : Option I64 × Option I64) (pair : List UInt8 × Object) :
    Outcome DhtPeerWireMetaInfoRequesterError (Option I64 × Option I64) :=
  if pair.1 = asciiBytes "metadata_size" then do
    let size ← parseInteger pair.2 "metadata_size"
    pure (some size, found.2)
  else if pair.1 = asciiBytes "m" then
    match pair.2 with
    | .dict pairs broken _ => do
      let id ← pairs.foldlM extensionPair found.2
      pairsEnd broken
      pure (found.1, id)
    | _ => .error (.protocolBencode "extension handshake m must be a dictionary")
  else .ok found

/-- `.ok_or(error)?`. -/
def okOr {α : Type} (x : Option α) (error : DhtPeerWireMetaInfoRequesterError) :
    Outcome DhtPeerWireMetaInfoRequesterError α :=
  match x with
  | some a => .ok a
  | none => .error error

/-- `decode_extension_handshake`. -/
def decodeExtensionHandshake (bendy : Bendy) (payload : List UInt8) :
    Outcome DhtPeerWireMetaInfoRequesterError ExtensionHandshake := do
  let object ← okOr (← bencodeResult (bendy.nextObject maxBencodeNestingDepth payload))
    (.protocolBencode "empty extension handshake")
  let (metadataSize, remoteUtMetadataId) ←
    match object with
    | .dict pairs broken _ => do
      let found ← pairs.foldlM handshakePair (none, none)
      pairsEnd broken
      pure found
    | _ => .error (.protocolBencode "extension handshake root must be a dictionary")
  if ← bencodeResult (bendy.hasTrailingObject maxBencodeNestingDepth payload) then
    .error (.protocolBencode "trailing extension handshake object")
  else do
    let metadataSize ← okOr metadataSize (.missingExtensionHandshakeField "metadata_size")
    if ¬ (1 ≤ metadataSize.val ∧ metadataSize.val < maxMetadataSize) then
      .error (.invalidMetadataSize metadataSize)
    else do
      let id ← okOr remoteUtMetadataId (.missingExtensionHandshakeField "m.ut_metadata")
      if ¬ (1 ≤ id.val ∧ id.val ≤ 254) then .error (.invalidRemoteUtMetadataId id)
      else pure ⟨metadataSize.val.toNat, UInt8.ofNat id.val.toNat⟩

/-- One round of `perform_extension_handshake`. -/
def extensionHandshakeRound (bendy : Bendy) (peer : SocketAddrV4) (_ : Unit) :
    PeerWire (Unit ⊕ ExtensionHandshake) := do
  match ← readMessage peer with
  | id :: extension :: payload =>
    if id ≠ extendedMessageId then pure (.inl ())
    else if extension ≠ extensionHandshakeId then
      fail (.firstExtensionMessageNotHandshake extension)
    else .inr <$> lift (decodeExtensionHandshake bendy payload)
  | _ => pure (.inl ())

/-- A loop that reads at least one byte of the stream in every round. -/
def whileReading {β α : Type} (round : β → PeerWire (β ⊕ α)) (b : β) : PeerWire α := fun s =>
  iterate round (s.unread.length + 1) b s

/-- `perform_extension_handshake`. -/
def performExtensionHandshake (bendy : Bendy) (peer : SocketAddrV4) :
    PeerWire ExtensionHandshake := do
  writeAll peer .extensionHandshakeWrite extensionHandshakeRequest
  whileReading (extensionHandshakeRound bendy peer) ()

/-! ## Pieces -/

/-- `metadata_size.div_ceil(DHT_PEER_WIRE_METADATA_PIECE_SIZE)`. -/
def pieceCount (metadataSize : Nat) : Nat :=
  (metadataSize + metadataPieceSize - 1) / metadataPieceSize

/-- The frame that asks for one piece; the two conversions of its length are
`expect`ed to succeed. -/
def requestFrame (remoteUtMetadataId : UInt8) (piece : Nat) :
    Outcome DhtPeerWireMetaInfoRequesterError (List UInt8) :=
  let header := asciiBytes "d8:msg_typei0e5:piecei" ++ Bencode.decimal piece ++ asciiBytes "ee"
  let bodyLength := 2 + header.length
  if bodyLength < 2 ^ 32 then
    .ok (u32ToBeBytes bodyLength ++ extendedMessageId :: remoteUtMetadataId :: header)
  else .fault

/-- The rounds of `request_all_pieces`. -/
def requestPieces (peer : SocketAddrV4) (remoteUtMetadataId : UInt8) : List Nat → PeerWire Unit
  | [] => pure ()
  | piece :: rest => do
    writeAll peer .metadataRequestWrite (← lift (requestFrame remoteUtMetadataId piece))
    requestPieces peer remoteUtMetadataId rest

/-- `request_all_pieces`. -/
def requestAllPieces (peer : SocketAddrV4) (metadataSize : Nat) (remoteUtMetadataId : UInt8) :
    PeerWire Unit :=
  requestPieces peer remoteUtMetadataId (List.range (pieceCount metadataSize))

/-- `MetadataHeader`. -/
structure MetadataHeader where
  messageType : I64
  piece : I64
  totalSize : Option I64
deriving DecidableEq

/-- The fields of a metadata message found so far. -/
structure MetadataFields where
  messageType : Option I64 := none
  piece : Option I64 := none
  totalSize : Option I64 := none

/-- One pair of a metadata message. -/
def metadataPair (found : MetadataFields) (pair : List UInt8 × Object) :
    Outcome DhtPeerWireMetaInfoRequesterError MetadataFields :=
  if pair.1 = asciiBytes "msg_type" then do
    let n ← parseInteger pair.2 "msg_type"
    pure { found with messageType := some n }
  else if pair.1 = asciiBytes "piece" then do
    let n ← parseInteger pair.2 "piece"
    pure { found with piece := some n }
  else if pair.1 = asciiBytes "total_size" then do
    let n ← parseInteger pair.2 "total_size"
    pure { found with totalSize := some n }
  else .ok found

/-- `decode_metadata_message`. -/
def decodeMetadataMessage (bendy : Bendy) (payload : List UInt8) :
    Outcome DhtPeerWireMetaInfoRequesterError (MetadataHeader × List UInt8) := do
  let object ← okOr (← bencodeResult (bendy.nextObject maxBencodeNestingDepth payload))
    (.protocolBencode "empty ut_metadata message")
  match object with
  | .dict pairs broken raw => do
    let found ← pairs.foldlM metadataPair {}
    pairsEnd broken
    let raw ← bencodeResult raw
    let messageType ← okOr found.messageType (.missingMetadataMessageField "msg_type")
    let piece ← okOr found.piece (.missingMetadataMessageField "piece")
    let behind ← .ofOption (slice? payload raw.length payload.length)
    pure (⟨messageType, piece, found.totalSize⟩, behind)
  | _ => .error (.protocolBencode "ut_metadata header must be a dictionary")

/-- `metadata_size as i64`. -/
def asI64 (n : Nat) : Int := Int.bmod n (2 ^ 64)

/-- A total size, where the peer gives one, must be the negotiated size. -/
def checkTotalSize (totalSize : Option I64) (metadataSize : Nat) :
    Outcome DhtPeerWireMetaInfoRequesterError Unit :=
  match totalSize with
  | some totalSize =>
    if totalSize.val ≠ asI64 metadataSize then
      .error (.metadataTotalSizeMismatch totalSize metadataSize)
    else .ok ()
  | none => .ok ()

/-- The length piece `piece` must have; `usize` must not overflow or underflow. -/
def expectedLength (metadataSize pieces piece : Nat) :
    Outcome DhtPeerWireMetaInfoRequesterError Nat :=
  if ¬ piece + 1 < usizeLimit then .fault
  else if piece + 1 = pieces then
    if piece * metadataPieceSize < usizeLimit ∧ piece * metadataPieceSize ≤ metadataSize then
      .ok (metadataSize - piece * metadataPieceSize)
    else .fault
  else .ok metadataPieceSize

/-- What the loop of `read_all_pieces` does with a data message: the piece to store. -/
def acceptData (metadataSize : Nat) (pieces : List (Option (List UInt8)))
    (header : MetadataHeader) (payload : List UInt8) :
    Outcome DhtPeerWireMetaInfoRequesterError (Nat × List UInt8) := do
  checkTotalSize header.totalSize metadataSize
  let count := pieceCount metadataSize
  if ¬ (0 ≤ header.piece.val ∧ header.piece.val.toNat < count) then
    .error (.invalidPieceIndex header.piece count)
  else do
    let piece := header.piece.val.toNat
    let slot ← .ofOption pieces[piece]?
    if slot.isSome then .error (.duplicatePiece piece)
    else do
      let expected ← expectedLength metadataSize count piece
      if payload.length ≠ expected then
        .error (.invalidPieceLength piece payload.length expected)
      else pure (piece, payload)

/-- The body of the loop of `read_all_pieces` behind `read_message`: `none` where it
continues, otherwise the piece to store. -/
def acceptMessage (bendy : Bendy) (metadataSize : Nat) (pieces : List (Option (List UInt8)))
    (message : List UInt8) :
    Outcome DhtPeerWireMetaInfoRequesterError (Option (Nat × List UInt8)) :=
  match message with
  | id :: extension :: body =>
    if id ≠ extendedMessageId ∨ extension ≠ localUtMetadataId then .ok none
    else do
      let (header, payload) ← decodeMetadataMessage bendy body
      if header.messageType.val = 2 then .error (.metadataRejected header.piece)
      else if header.messageType.val ≠ 1 then .ok none
      else some <$> acceptData metadataSize pieces header payload
  | _ => .ok none

/-- The locals of `read_all_pieces`. -/
structure Pieces where
  pieces : List (Option (List UInt8))
  remaining : Nat

/-- `pieces[piece] = Some(payload); remaining -= 1`. -/
def Pieces.store (p : Pieces) (piece : Nat) (payload : List UInt8) :
    Outcome DhtPeerWireMetaInfoRequesterError Pieces :=
  if piece < p.pieces.length ∧ 1 ≤ p.remaining then
    .ok ⟨p.pieces.set piece (some payload), p.remaining - 1⟩
  else .fault

/-- `flat_map(|piece| piece.expect(..)).collect()`. -/
def Pieces.join (p : Pieces) : Outcome DhtPeerWireMetaInfoRequesterError (List UInt8) :=
  List.flatten <$> Outcome.collect (p.pieces.map .ofOption)

/-- One round of `read_all_pieces`. -/
def readPieceRound (bendy : Bendy) (peer : SocketAddrV4) (metadataSize : Nat) (p : Pieces) :
    PeerWire (Pieces ⊕ List UInt8) :=
  if p.remaining = 0 then .inr <$> lift p.join
  else do
    let message ← readMessage peer
    match ← lift (acceptMessage bendy metadataSize p.pieces message) with
    | none => pure (.inl p)
    | some (piece, payload) => .inl <$> lift (p.store piece payload)

/-- `read_all_pieces`. -/
def readAllPieces (bendy : Bendy) (peer : SocketAddrV4) (metadataSize : Nat) :
    PeerWire (List UInt8) :=
  let count := pieceCount metadataSize
  whileReading (readPieceRound bendy peer metadataSize) ⟨List.replicate count none, count⟩

/-- `request_over_stream`. -/
def requestOverStream (bendy : Bendy) (digests : Digests) (peer : SocketAddrV4)
    (infoHash peerId : Id20) : PeerWire ParsedInfo := do
  let _ ← performBitTorrentHandshake peer infoHash peerId
  let extension ← performExtensionHandshake bendy peer
  requestAllPieces peer extension.metadataSize extension.remoteUtMetadataId
  let rawInfo ← readAllPieces bendy peer extension.metadataSize
  match parseInfoBytes bendy digests ⟨infoHash.bytes, infoHash.size⟩ rawInfo with
  | .ok parsed => pure parsed
  | .error error => fail (.parse error)

end Bitmagnet.Crawler
