import Mathlib.Algebra.BigOperators.Group.List.Basic
import Bitmagnet.Library.Slots
import Bitmagnet.Crawler.PeerWire

/-!
# What is assembled is what the peer sent

`read_all_pieces` reads frames until every piece has arrived.  Two relations describe
a frame without the loop: `Reads` says what a message contributes, a piece or
nothing, and `Refused` lists the messages that must end the request.

The loop is run once, for one round (`wp_readPieceRound`): it takes one frame off the
stream and either stores what the frame contributes or ends in an error, and it does
the latter only where nothing can be contributed.  Everything else is a choice of
invariant over that round: the frames read so far, for what a result must have come
from; the frames still to be read, for what must come of given frames.  The pieces
received so far are a `Slots` table, so the order in which they came is forgotten.
-/

namespace Bitmagnet.Crawler

open Bytes (Fixed slice?)
open Dht (Id20)
open Dht.Inbound (usizeLimit)
open Scan (wp lift iterate)

/-! ## Frames -/

/-- A message on the wire: its length, then its body. -/
def frame (message : List UInt8) : List UInt8 := u32ToBeBytes message.length ++ message

variable {n : Nat} {s : PeerStream}

lemma u32FromBeBytes_toBeBytes (h : n < 2 ^ 32) : u32FromBeBytes (u32ToBeBytes n) = n := by
  simp only [u32FromBeBytes, u32ToBeBytes, List.foldl_cons, List.foldl_nil, UInt8.toNat_ofNat']
  omega

lemma u32ToBeBytes_fromBeBytes {bytes : List UInt8} (h : bytes.length = 4) :
    u32ToBeBytes (u32FromBeBytes bytes) = bytes := by
  match bytes, h with
  | [a, b, c, d], _ =>
    have ha := a.toNat_lt
    have hb := b.toNat_lt
    have hc := c.toNat_lt
    have hd := d.toNat_lt
    simp only [u32FromBeBytes, u32ToBeBytes, List.foldl_cons, List.foldl_nil,
      List.cons.injEq, and_true, ← UInt8.toNat_inj, UInt8.toNat_ofNat']
    omega

@[simp] lemma length_u32ToBeBytes (n : Nat) : (u32ToBeBytes n).length = 4 := rfl

lemma lt_of_le_maxMetadataSize (h : n ≤ maxMetadataSize) : n < 2 ^ 32 :=
  lt_of_le_of_lt h (by decide)

/-- Frames are self-delimiting. -/
lemma frame_append_inj {m m' rest rest' : List UInt8} (hm : m.length ≤ maxMetadataSize)
    (hm' : m'.length ≤ maxMetadataSize) (h : frame m ++ rest = frame m' ++ rest') :
    m = m' ∧ rest = rest' := by
  unfold frame at h
  rw [List.append_assoc, List.append_assoc] at h
  obtain ⟨hlength, hbody⟩ := List.append_inj h (by simp)
  have hlen : m.length = m'.length := by
    have := congrArg u32FromBeBytes hlength
    rwa [u32FromBeBytes_toBeBytes (lt_of_le_maxMetadataSize hm),
      u32FromBeBytes_toBeBytes (lt_of_le_maxMetadataSize hm')] at this
  exact List.append_inj hbody hlen

lemma wp_readExact {peer : SocketAddrV4} {stage : DhtPeerWireMetaInfoRequesterStage}
    {Q : List UInt8 → PeerStream → Prop}
    {E : DhtPeerWireMetaInfoRequesterError → PeerStream → Prop} :
    wp (readExact peer stage n) Q E s ↔
      (n ≤ s.unread.length → Q (s.unread.take n) (s.consume n)) ∧
      (s.unread.length < n → E (.io peer stage s.readEnd) (s.consume s.unread.length)) := by
  unfold wp readExact
  by_cases h : n ≤ s.unread.length
  · simp [h, Nat.not_lt.mpr h]
  · simp [h, Nat.lt_of_not_le h]

/-- Every frame buffer allocated since `s` is within the limit. -/
def FramesBounded (s s' : PeerStream) : Prop :=
  ∀ n ∈ s'.frames, n ∈ s.frames ∨ n ≤ maxMetadataSize

lemma FramesBounded.refl (s : PeerStream) : FramesBounded s s := fun _ h => .inl h

lemma FramesBounded.trans {s' s'' : PeerStream} (h : FramesBounded s s')
    (h' : FramesBounded s' s'') : FramesBounded s s'' := by
  intro n hn
  rcases h' n hn with hmem | hle
  · exact h n hmem
  · exact .inr hle

lemma FramesBounded.of_cons {s' : PeerStream} (h : s'.frames = n :: s.frames)
    (hn : n ≤ maxMetadataSize) : FramesBounded s s' := by
  intro k hk
  rw [h] at hk
  rcases List.mem_cons.mp hk with rfl | hmem
  · exact .inr hn
  · exact .inl hmem

/-- **Reading a message takes one frame off the stream**, and fails only where the
stream does not begin with one. -/
lemma wp_readMessage (peer : SocketAddrV4) (s : PeerStream) :
    wp (readMessage peer)
      (fun m s' => s.unread = frame m ++ s'.unread ∧ m.length ≤ maxMetadataSize ∧
        FramesBounded s s')
      (fun _ s' => (∀ m rest, m.length ≤ maxMetadataSize → s.unread ≠ frame m ++ rest) ∧
        FramesBounded s s') s := by
  have hshort : ∀ m rest : List UInt8, s.unread = frame m ++ rest → 4 ≤ s.unread.length := by
    intro m rest h
    rw [h, frame]
    simp only [List.length_append, length_u32ToBeBytes]
    omega
  -- a frame at the front announces its own length
  have hfront : ∀ m rest : List UInt8, m.length ≤ maxMetadataSize → s.unread = frame m ++ rest →
      u32FromBeBytes (s.unread.take 4) = m.length := by
    intro m rest hm h
    rw [h, frame, List.append_assoc, List.take_left' (length_u32ToBeBytes _)]
    exact u32FromBeBytes_toBeBytes (lt_of_le_maxMetadataSize hm)
  simp only [readMessage, Scan.wp_bind, wp_readExact, Scan.wp_ensure, Scan.wp_update]
  refine ⟨fun hfour => ⟨fun hlimit => ⟨fun hbody => ?_, fun hbody => ?_⟩, fun hlimit => ?_⟩,
    fun hfour => ?_⟩
  · have hlen : (s.unread.take 4).length = 4 := by simp [hfour]
    have hsplit : s.unread = s.unread.take 4 ++ s.unread.drop 4 := (List.take_append_drop 4 _).symm
    simp only [PeerStream.allocate_unread, PeerStream.consume_unread] at hbody ⊢
    have hbodyLen : ((s.unread.drop 4).take (u32FromBeBytes (s.unread.take 4))).length =
        u32FromBeBytes (s.unread.take 4) := by
      rw [List.length_take]
      omega
    refine ⟨?_, by rw [hbodyLen]; exact hlimit, FramesBounded.of_cons rfl hlimit⟩
    rw [frame, hbodyLen, u32ToBeBytes_fromBeBytes hlen, List.append_assoc, List.take_append_drop]
    exact hsplit
  · refine ⟨fun m rest hm h => ?_, FramesBounded.of_cons rfl hlimit⟩
    have hlength := hfront m rest hm h
    simp only [PeerStream.allocate_unread, PeerStream.consume_unread, hlength] at hbody
    have hdrop := congrArg List.length h
    simp only [frame, List.length_append, length_u32ToBeBytes, List.length_drop] at hdrop hbody
    omega
  · refine ⟨fun m rest hm h => hlimit ?_, FramesBounded.refl s⟩
    rw [hfront m rest hm h]
    exact hm
  · refine ⟨fun m rest _ h => ?_, FramesBounded.refl s⟩
    have := hshort m rest h
    omega

/-! ## What a message contributes -/

/-- The length of a piece: all are full but the last. -/
def pieceLength (metadataSize piece : Nat) : Nat :=
  if piece + 1 = pieceCount metadataSize then metadataSize - piece * metadataPieceSize
  else metadataPieceSize

/-- What a message contributes to metadata of a given size: nothing, if it is no
metadata message or of an unknown type, or one piece of the length the size leaves
for it. -/
inductive Reads (bendy : Bendy) (metadataSize : Nat) :
    List UInt8 → Option (Nat × List UInt8) → Prop
  | other {message : List UInt8}
      (h : ∀ body, message ≠ extendedMessageId :: localUtMetadataId :: body) :
      Reads bendy metadataSize message none
  | unknownType {body payload : List UInt8} {header : MetadataHeader}
      (hdecode : decodeMetadataMessage bendy body = .ok (header, payload))
      (hdata : header.messageType.val ≠ 1) (hreject : header.messageType.val ≠ 2) :
      Reads bendy metadataSize (extendedMessageId :: localUtMetadataId :: body) none
  | data {body payload : List UInt8} {header : MetadataHeader} {piece : Nat}
      (hdecode : decodeMetadataMessage bendy body = .ok (header, payload))
      (htype : header.messageType.val = 1)
      (hsize : ∀ totalSize ∈ header.totalSize, totalSize.val = metadataSize)
      (hpiece : header.piece.val = piece) (hlt : piece < pieceCount metadataSize)
      (hlength : payload.length = pieceLength metadataSize piece) :
      Reads bendy metadataSize (extendedMessageId :: localUtMetadataId :: body)
        (some (piece, payload))

/-- The messages that end a request that has received `received`: a rejection, or a
data message with another total size, an index out of range, a piece that has been
received, or a payload of another length. -/
inductive Refused (bendy : Bendy) (metadataSize : Nat) (received : List (Nat × List UInt8)) :
    List UInt8 → Prop
  | reject {body payload : List UInt8} {header : MetadataHeader}
      (hdecode : decodeMetadataMessage bendy body = .ok (header, payload))
      (htype : header.messageType.val = 2) :
      Refused bendy metadataSize received (extendedMessageId :: localUtMetadataId :: body)
  | totalSizeMismatch {body payload : List UInt8} {header : MetadataHeader} {totalSize : Dht.I64}
      (hdecode : decodeMetadataMessage bendy body = .ok (header, payload))
      (htype : header.messageType.val = 1) (hsome : header.totalSize = some totalSize)
      (hne : totalSize.val ≠ metadataSize) :
      Refused bendy metadataSize received (extendedMessageId :: localUtMetadataId :: body)
  | outOfRange {body payload : List UInt8} {header : MetadataHeader}
      (hdecode : decodeMetadataMessage bendy body = .ok (header, payload))
      (htype : header.messageType.val = 1)
      (hrange : header.piece.val < 0 ∨ (pieceCount metadataSize : Int) ≤ header.piece.val) :
      Refused bendy metadataSize received (extendedMessageId :: localUtMetadataId :: body)
  | duplicate {body payload : List UInt8} {header : MetadataHeader} {piece : Nat}
      (hdecode : decodeMetadataMessage bendy body = .ok (header, payload))
      (htype : header.messageType.val = 1) (hpiece : header.piece.val = piece)
      (hmem : piece ∈ received.map Prod.fst) :
      Refused bendy metadataSize received (extendedMessageId :: localUtMetadataId :: body)
  | wrongLength {body payload : List UInt8} {header : MetadataHeader} {piece : Nat}
      (hdecode : decodeMetadataMessage bendy body = .ok (header, payload))
      (htype : header.messageType.val = 1) (hpiece : header.piece.val = piece)
      (hlength : payload.length ≠ pieceLength metadataSize piece) :
      Refused bendy metadataSize received (extendedMessageId :: localUtMetadataId :: body)

/-- A contribution that no earlier one takes the place of. -/
def Fresh (received : List (Nat × List UInt8)) (item : Option (Nat × List UInt8)) : Prop :=
  ∀ piece ∈ item, piece.1 ∉ received.map Prod.fst

section Messages

variable {bendy : Bendy} {metadataSize : Nat}

/-- A message contributes one thing. -/
lemma Reads.unique {message : List UInt8} {item item' : Option (Nat × List UInt8)}
    (h : Reads bendy metadataSize message item) (h' : Reads bendy metadataSize message item') :
    item = item' := by
  cases h with
  | other hother =>
    cases h' with
    | other => rfl
    | unknownType | data => exact absurd rfl (hother _)
  | unknownType hdecode hdata =>
    cases h' with
    | other hother => exact absurd rfl (hother _)
    | unknownType => rfl
    | data hdecode' htype =>
      cases hdecode.symm.trans hdecode'
      exact absurd htype hdata
  | data hdecode htype _ hpiece =>
    cases h' with
    | other hother => exact absurd rfl (hother _)
    | unknownType hdecode' hdata =>
      cases hdecode.symm.trans hdecode'
      exact absurd htype hdata
    | data hdecode' _ _ hpiece' =>
      cases hdecode.symm.trans hdecode'
      rw [hpiece, Int.natCast_inj] at hpiece'
      rw [hpiece']

/-- A refused message contributes nothing new. -/
lemma Refused.not_reads {received : List (Nat × List UInt8)} {message : List UInt8}
    {item : Option (Nat × List UInt8)} (h : Refused bendy metadataSize received message)
    (hreads : Reads bendy metadataSize message item) : ¬ Fresh received item := by
  intro hfresh
  cases hreads with
  | other hother => cases h <;> exact absurd rfl (hother _)
  | unknownType hdecode hdata hreject =>
    cases h with
    | reject hdecode' htype =>
      cases hdecode.symm.trans hdecode'
      exact hreject htype
    | totalSizeMismatch hdecode' htype | outOfRange hdecode' htype
    | duplicate hdecode' htype | wrongLength hdecode' htype =>
      cases hdecode.symm.trans hdecode'
      exact hdata htype
  | data hdecode hdata hsize hindex hlt hlen =>
    cases h with
    | reject hdecode' htype =>
      cases hdecode.symm.trans hdecode'
      omega
    | totalSizeMismatch hdecode' _ hsome hne =>
      cases hdecode.symm.trans hdecode'
      exact hne (hsize _ hsome)
    | outOfRange hdecode' _ hrange =>
      cases hdecode.symm.trans hdecode'
      omega
    | duplicate hdecode' _ hpiece hmem =>
      cases hdecode.symm.trans hdecode'
      rw [hindex, Int.natCast_inj] at hpiece
      exact hfresh _ rfl (hpiece ▸ hmem)
    | wrongLength hdecode' _ hpiece hne =>
      cases hdecode.symm.trans hdecode'
      rw [hindex, Int.natCast_inj] at hpiece
      exact hne (hpiece ▸ hlen)

end Messages

/-! ## Deciding on a message -/

lemma parseInteger_ensures (value : Object) (field : String) :
    (parseInteger value field).Ensures (fun _ => True) fun _ => True := by
  unfold parseInteger
  split
  · split <;> trivial
  · trivial

lemma metadataPair_ensures (found : MetadataFields) (pair : List UInt8 × Object) :
    (metadataPair found pair).Ensures (fun _ => True) fun _ => True := by
  have hparse : ∀ (field : String) (f : Dht.I64 → MetadataFields),
      (parseInteger pair.2 field >>= fun n => pure (f n)).Ensures (fun _ => True)
        fun _ => True := by
    intro field f
    rw [Outcome.ensures_bind]
    exact (parseInteger_ensures pair.2 field).mono (fun _ _ => trivial) fun _ h => h
  unfold metadataPair
  split
  · exact hparse _ _
  · split
    · exact hparse _ _
    · split
      · exact hparse _ _
      · trivial

lemma okOr_ensures {α : Type} (x : Option α) (error : DhtPeerWireMetaInfoRequesterError) :
    (okOr x error).Ensures (fun a => x = some a) fun _ => True := by
  cases x <;> simp [okOr]

lemma bencodeResult_ensures {α : Type} (x : Except BendyError α) :
    (bencodeResult x).Ensures (fun a => x = .ok a) fun _ => True := by
  cases x <;> simp [bencodeResult]

/-- Decoding a metadata message never faults: what is behind the header is a slice of
the message. -/
lemma decodeMetadataMessage_ensures {bendy : Bendy} (hbendy : bendy.Lawful) (payload : List UInt8) :
    (decodeMetadataMessage bendy payload).Ensures (fun _ => True) fun _ => True := by
  unfold decodeMetadataMessage
  rw [Outcome.ensures_bind]
  refine (bencodeResult_ensures _).mono (fun object? hobject? => ?_) fun _ h => h
  rw [Outcome.ensures_bind]
  refine (okOr_ensures _ _).mono (fun object hobject => ?_) fun _ h => h
  subst hobject
  match object with
  | .integer _ | .bytes _ | .list => trivial
  | .dict pairs broken raw =>
    rw [Outcome.ensures_bind]
    refine (Outcome.ensures_foldlM (I := fun _ => True)
      (fun found _ pair _ => metadataPair_ensures found pair) trivial).mono
      (fun found _ => ?_) fun _ h => h
    rw [Outcome.ensures_bind]
    cases broken with
    | some error => trivial
    | none =>
      rw [pairsEnd, Outcome.ensures_ok, Outcome.ensures_bind]
      refine (bencodeResult_ensures raw).mono (fun raw' hraw => ?_) fun _ h => h
      subst hraw
      obtain ⟨rest, rfl⟩ := hbendy _ _ _ _ _ hobject?
      rw [Outcome.ensures_bind]
      refine (okOr_ensures _ _).mono (fun messageType _ => ?_) fun _ h => h
      rw [Outcome.ensures_bind]
      refine (okOr_ensures _ _).mono (fun piece _ => ?_) fun _ h => h
      rw [Bytes.slice?_append_right]
      trivial

section Decision

variable {bendy : Bendy} {metadataSize : Nat} {received : List (Nat × List UInt8)}

lemma pieceCount_spec (hpos : 1 ≤ metadataSize) :
    1 ≤ pieceCount metadataSize ∧
      (pieceCount metadataSize - 1) * metadataPieceSize < metadataSize ∧
      metadataSize ≤ pieceCount metadataSize * metadataPieceSize := by
  simp only [pieceCount, metadataPieceSize]
  omega

lemma expectedLength_eq {piece : Nat} (hpos : 1 ≤ metadataSize)
    (hle : metadataSize ≤ maxMetadataSize) (hlt : piece < pieceCount metadataSize) :
    expectedLength metadataSize (pieceCount metadataSize) piece =
      .ok (pieceLength metadataSize piece) := by
  obtain ⟨-, hlast, -⟩ := pieceCount_spec hpos
  have hcount : pieceCount metadataSize ≤ 640 := by
    simp only [maxMetadataSize] at hle
    simp only [pieceCount, metadataPieceSize]
    omega
  have hlimit : usizeLimit = 2 ^ 64 := rfl
  have hmax : maxMetadataSize = 10485760 := rfl
  unfold expectedLength pieceLength
  rw [if_neg (by omega)]
  by_cases hend : piece + 1 = pieceCount metadataSize
  · have hpiece : piece = pieceCount metadataSize - 1 := by omega
    rw [if_pos hend, if_pos hend, hpiece, if_pos (by omega)]
  · rw [if_neg hend, if_neg hend]

lemma asI64_eq (hle : metadataSize ≤ maxMetadataSize) : asI64 metadataSize = metadataSize := by
  simp only [maxMetadataSize] at hle
  unfold asI64
  rw [Int.bmod_def]
  omega

lemma checkTotalSize_ensures (totalSize : Option Dht.I64) (hle : metadataSize ≤ maxMetadataSize) :
    (checkTotalSize totalSize metadataSize).Ensures
      (fun _ => ∀ size ∈ totalSize, size.val = metadataSize)
      fun _ => ∃ size, totalSize = some size ∧ size.val ≠ metadataSize := by
  cases totalSize with
  | none => simp [checkTotalSize]
  | some size =>
    by_cases h : size.val = metadataSize
    · simp [checkTotalSize, asI64_eq hle, h]
    · simp [checkTotalSize, asI64_eq hle, h]

/-- A data message is stored as what it contributes, or refused. -/
lemma acceptData_ensures (hpos : 1 ≤ metadataSize) (hle : metadataSize ≤ maxMetadataSize)
    {body payload : List UInt8} {header : MetadataHeader}
    (hdecode : decodeMetadataMessage bendy body = .ok (header, payload))
    (htype : header.messageType.val = 1) :
    (acceptData metadataSize (Slots.table (pieceCount metadataSize) received) header
        payload).Ensures
      (fun item =>
        Reads bendy metadataSize (extendedMessageId :: localUtMetadataId :: body) (some item) ∧
        item.1 ∉ received.map Prod.fst)
      fun _ =>
        Refused bendy metadataSize received (extendedMessageId :: localUtMetadataId :: body) := by
  unfold acceptData
  rw [Outcome.ensures_bind]
  refine (checkTotalSize_ensures header.totalSize hle).mono (fun _ hsize => ?_) ?_
  swap
  · rintro - ⟨size, hsome, hne⟩
    exact .totalSizeMismatch hdecode htype hsome hne
  dsimp only
  by_cases hrange : 0 ≤ header.piece.val ∧ header.piece.val.toNat < pieceCount metadataSize
  swap
  · rw [if_pos hrange]
    exact .outOfRange hdecode htype (by omega)
  obtain ⟨hnonneg, hlt⟩ := hrange
  have hindex : header.piece.val = (header.piece.val.toNat : Int) := by omega
  rw [if_neg (not_not.mpr ⟨hnonneg, hlt⟩), Slots.getElem?_table received hlt,
    Outcome.ofOption_some, Outcome.ok_bind]
  by_cases hmem : header.piece.val.toNat ∈ received.map Prod.fst
  · have hsome : (received.lookup header.piece.val.toNat).isSome := by
      rw [Option.isSome_iff_ne_none]
      exact fun hnone => Slots.lookup_eq_none.mp hnone hmem
    rw [if_pos hsome]
    exact .duplicate hdecode htype hindex hmem
  rw [Slots.lookup_eq_none.mpr hmem, if_neg (by simp), expectedLength_eq hpos hle hlt,
    Outcome.ok_bind]
  by_cases hlength : payload.length = pieceLength metadataSize header.piece.val.toNat
  · rw [if_neg (not_not.mpr hlength)]
    exact ⟨.data hdecode htype hsize hindex hlt hlength, hmem⟩
  · rw [if_pos hlength]
    exact .wrongLength hdecode htype hindex hlength

/-- **What becomes of a message**: it is taken for what it contributes, and ends the
request only where it contributes nothing new. -/
lemma acceptMessage_ensures (hbendy : bendy.Lawful) (hpos : 1 ≤ metadataSize)
    (hle : metadataSize ≤ maxMetadataSize) (message : List UInt8) :
    (acceptMessage bendy metadataSize (Slots.table (pieceCount metadataSize) received)
        message).Ensures
      (fun item => Reads bendy metadataSize message item ∧ Fresh received item)
      fun _ => ∀ item, Reads bendy metadataSize message item → ¬ Fresh received item := by
  match message with
  | [] => exact ⟨.other (by simp), by simp [Fresh]⟩
  | [_] => exact ⟨.other (by simp), by simp [Fresh]⟩
  | id :: extension :: body =>
    simp only [acceptMessage]
    by_cases hother : id ≠ extendedMessageId ∨ extension ≠ localUtMetadataId
    · rw [if_pos hother]
      refine ⟨.other fun body' heq => ?_, by simp [Fresh]⟩
      cases heq
      simp at hother
    rw [if_neg hother]
    obtain ⟨rfl, rfl⟩ : id = extendedMessageId ∧ extension = localUtMetadataId := by
      simpa using hother
    have hsafe := decodeMetadataMessage_ensures hbendy body
    cases hdecode : decodeMetadataMessage bendy body with
    | fault => simp [hdecode] at hsafe
    | error e =>
      intro item hreads
      cases hreads with
      | other hother => exact absurd rfl (hother _)
      | unknownType hdecode' => simp [hdecode] at hdecode'
      | data hdecode' => simp [hdecode] at hdecode'
    | ok decoded =>
      obtain ⟨header, payload⟩ := decoded
      rw [Outcome.ok_bind]
      dsimp only
      by_cases hreject : header.messageType.val = 2
      · rw [if_pos hreject]
        exact fun _ => (Refused.reject hdecode hreject).not_reads
      rw [if_neg hreject]
      by_cases htype : header.messageType.val = 1
      · rw [if_neg (not_not.mpr htype), Outcome.ensures_map]
        refine (acceptData_ensures hpos hle hdecode htype).mono ?_ ?_
        · rintro item ⟨hreads, hfresh⟩
          refine ⟨hreads, ?_⟩
          rintro piece ⟨⟩
          exact hfresh
        · exact fun _ hrefused _ => hrefused.not_reads
      · rw [if_pos htype]
        exact ⟨.unknownType hdecode htype hreject, by simp [Fresh]⟩

end Decision

/-! ## One round -/

/-- The locals of the loop after `received`. -/
structure Received (metadataSize : Nat) (received : List (Nat × List UInt8)) (p : Pieces) :
    Prop where
  legal : Slots.Legal (pieceCount metadataSize) received
  pieces : p.pieces = Slots.table (pieceCount metadataSize) received
  remaining : p.remaining + received.length = pieceCount metadataSize
  lengths : ∀ item ∈ received, item.2.length = pieceLength metadataSize item.1

section Round

variable {bendy : Bendy} {metadataSize : Nat} {received : List (Nat × List UInt8)} {p : Pieces}

lemma Received.start :
    Received metadataSize []
      ⟨List.replicate (pieceCount metadataSize) none, pieceCount metadataSize⟩ :=
  ⟨.nil, (Slots.table_nil _).symm, by simp, by simp⟩

/-- Storing a new piece neither leaves the table nor underflows the count. -/
lemma Received.store (h : Received metadataSize received p) {message : List UInt8}
    {piece : Nat} {payload : List UInt8}
    (hreads : Reads bendy metadataSize message (some (piece, payload)))
    (hfresh : piece ∉ received.map Prod.fst) :
    (p.store piece payload).Ensures (Received metadataSize (received ++ [(piece, payload)]))
      fun _ => False := by
  obtain ⟨hlt, hlength⟩ : piece < pieceCount metadataSize ∧
      payload.length = pieceLength metadataSize piece := by
    cases hreads with
    | data _ _ _ _ hlt hlength => exact ⟨hlt, hlength⟩
  have hlegal := h.legal.concat (a := payload) hfresh hlt
  have hroom := hlegal.length_le
  have hremaining := h.remaining
  rw [List.length_append, List.length_singleton] at hroom
  have hguard : piece < p.pieces.length ∧ 1 ≤ p.remaining := by
    rw [h.pieces, Slots.length_table]
    omega
  rw [Pieces.store, if_pos hguard]
  refine ⟨hlegal, ?_, ?_, ?_⟩
  · rw [h.pieces, Slots.table_concat payload hfresh]
  · simp only [List.length_append, List.length_singleton]
    omega
  · exact List.forall_mem_append.mpr ⟨h.lengths, List.forall_mem_singleton.mpr hlength⟩

/-- **A round that has pieces to wait for** takes one message off the stream and stores
what it contributes.  It fails only where the stream has no message, or one that
contributes nothing new. -/
lemma wp_readPieceRound (hbendy : bendy.Lawful) (hpos : 1 ≤ metadataSize)
    (hle : metadataSize ≤ maxMetadataSize) (peer : SocketAddrV4)
    (h : Received metadataSize received p) (hmore : p.remaining ≠ 0) (s : PeerStream) :
    wp (readPieceRound bendy peer metadataSize p)
      (fun r s' => ∃ p' message item, r = .inl p' ∧ s.unread = frame message ++ s'.unread ∧
        message.length ≤ maxMetadataSize ∧ Reads bendy metadataSize message item ∧
        Fresh received item ∧ Received metadataSize (received ++ item.toList) p' ∧
        FramesBounded s s')
      (fun _ s' => (∀ message rest item, message.length ≤ maxMetadataSize →
          s.unread = frame message ++ rest → Reads bendy metadataSize message item →
            ¬ Fresh received item) ∧ FramesBounded s s') s := by
  rw [readPieceRound, if_neg hmore, Scan.wp_bind]
  refine Scan.wp_mono (wp_readMessage peer s) ?_ ?_
  swap
  · rintro - s' ⟨hnone, hframes⟩
    exact ⟨fun m rest _ hm hunread => absurd hunread (hnone m rest hm), hframes⟩
  rintro message s' ⟨hunread, hlen, hframes⟩
  rw [Scan.wp_bind, Scan.wp_lift, h.pieces]
  refine (acceptMessage_ensures hbendy hpos hle message).mono ?_ ?_
  swap
  · intro _ hrefused
    refine ⟨fun m rest item hm hm' hreads => ?_, hframes⟩
    obtain ⟨rfl, -⟩ := frame_append_inj hlen hm (hunread.symm.trans hm')
    exact hrefused item hreads
  rintro (_ | ⟨piece, payload⟩) ⟨hreads, hfresh⟩
  · exact ⟨p, message, none, rfl, hunread, hlen, hreads, hfresh, by simpa using h, hframes⟩
  · rw [Scan.wp_map, Scan.wp_lift]
    refine (h.store hreads (hfresh _ rfl)).mono (fun p' hp' => ?_) fun _ hfalse => hfalse.elim
    exact ⟨p', message, _, rfl, hunread, hlen, hreads, hfresh, hp', hframes⟩

/-- The pieces of a full table, joined. -/
lemma Received.join (h : Received metadataSize received p) (hdone : p.remaining = 0) :
    ∃ pieces : List (List UInt8), pieces.length = pieceCount metadataSize ∧
      received.Perm (Slots.indexed pieces) ∧ p.join = .ok pieces.flatten := by
  have hremaining := h.remaining
  obtain ⟨pieces, hlength, htable, hperm⟩ := h.legal.exists_of_length_eq (by omega)
  refine ⟨pieces, hlength, hperm, ?_⟩
  have hcollect : Outcome.collect (ε := DhtPeerWireMetaInfoRequesterError)
      ((pieces.map some).map .ofOption) = .ok (pieces.map id) := by
    rw [List.map_map]
    exact Outcome.collect_map_ok fun _ _ => rfl
  rw [List.map_id] at hcollect
  rw [Pieces.join, h.pieces, htable, hcollect]
  rfl

lemma wp_readPieceRound_done (peer : SocketAddrV4) (h : Received metadataSize received p)
    (hdone : p.remaining = 0) {Q : Pieces ⊕ List UInt8 → PeerStream → Prop}
    {E : DhtPeerWireMetaInfoRequesterError → PeerStream → Prop} {s : PeerStream}
    (hQ : ∀ pieces : List (List UInt8), pieces.length = pieceCount metadataSize →
      received.Perm (Slots.indexed pieces) → Q (.inr pieces.flatten) s) :
    wp (readPieceRound bendy peer metadataSize p) Q E s := by
  obtain ⟨pieces, hlength, hperm, hjoin⟩ := h.join hdone
  rw [readPieceRound, if_pos hdone, Scan.wp_map, Scan.wp_lift, hjoin]
  exact hQ pieces hlength hperm

end Round

/-! ## Whole runs -/

/-- The pieces of the negotiated size have together that size. -/
lemma sum_pieceLength {metadataSize : Nat} (hpos : 1 ≤ metadataSize) :
    ((List.range (pieceCount metadataSize)).map (pieceLength metadataSize)).sum =
      metadataSize := by
  obtain ⟨hone, hlast, -⟩ := pieceCount_spec hpos
  obtain ⟨k, hk⟩ : ∃ k, pieceCount metadataSize = k + 1 := ⟨_, (Nat.sub_add_cancel hone).symm⟩
  have hfull : (List.range k).map (pieceLength metadataSize) =
      List.replicate k metadataPieceSize := by
    rw [List.eq_replicate_iff]
    refine ⟨by simp, fun n hn => ?_⟩
    obtain ⟨i, hi, rfl⟩ := List.mem_map.mp hn
    have hlt := List.mem_range.mp hi
    exact if_neg (by omega)
  have hend : pieceLength metadataSize k = metadataSize - k * metadataPieceSize :=
    if_pos hk.symm
  rw [hk, List.range_succ, List.map_append, List.sum_append, hfull, List.map_singleton,
    List.sum_singleton, hend, List.sum_replicate_nat]
  rw [hk, Nat.add_sub_cancel] at hlast
  omega

/-- Messages that together bring the pieces of the metadata, each once, whatever their
order and whatever else is among them. -/
structure Assembles (bendy : Bendy) (metadataSize : Nat) (messages pieces : List (List UInt8)) :
    Prop where
  fit : ∀ message ∈ messages, message.length ≤ maxMetadataSize
  count : pieces.length = pieceCount metadataSize
  perm : ∃ items, List.Forall₂ (Reads bendy metadataSize) messages items ∧
    items.reduceOption.Perm (Slots.indexed pieces)

section Runs

variable {bendy : Bendy} {metadataSize : Nat} {s : PeerStream} {messages : List (List UInt8)}
  {rest : List UInt8}

lemma length_lt_of_frame {message : List UInt8} {s' : PeerStream}
    (h : s.unread = frame message ++ s'.unread) : s'.unread.length < s.unread.length := by
  have := congrArg List.length h
  simp only [frame, List.length_append, length_u32ToBeBytes] at this
  omega

/-- The invariant rule of a loop that reads. -/
lemma wp_whileReading {β α : Type} {round : β → PeerWire (β ⊕ α)} (I : β → PeerStream → Prop)
    {Q : α → PeerStream → Prop} {E : DhtPeerWireMetaInfoRequesterError → PeerStream → Prop}
    (hround : ∀ b s, I b s → wp (round b) (fun r s' => Sum.elim
      (fun b' => I b' s' ∧ s'.unread.length < s.unread.length) (fun a => Q a s') r) E s) {b : β}
    (h : I b s) : wp (whileReading round b) Q E s :=
  Scan.wp_iterate I (fun s => s.unread.length) hround _ b s h (Nat.lt_succ_self _)

lemma reduceOption_concat {α : Type} (items : List (Option α)) (item : Option α) :
    (items ++ [item]).reduceOption = items.reduceOption ++ item.toList := by
  cases item <;> simp [List.reduceOption_append]

lemma flatMap_frame_concat (messages : List (List UInt8)) (message rest : List UInt8) :
    (messages ++ [message]).flatMap frame ++ rest =
      messages.flatMap frame ++ (frame message ++ rest) := by
  simp [List.flatMap_append]

/-- A request succeeds only with verified bytes that `read_all_pieces` returned. -/
lemma requestOverStream_eq_ok {digests : Digests} {peer : SocketAddrV4} {infoHash peerId : Id20}
    {s' : PeerStream} {parsed : ParsedInfo}
    (h : requestOverStream bendy digests peer infoHash peerId s = (.ok parsed, s')) :
    ∃ size t raw, readAllPieces bendy peer size t = (.ok raw, s') ∧
      digests.Verifies ⟨infoHash.bytes, infoHash.size⟩ raw ∧
      parseInfoBytes bendy digests ⟨infoHash.bytes, infoHash.size⟩ raw = .ok parsed := by
  obtain ⟨-, t₁, -, h⟩ := Scan.bind_eq_ok h
  obtain ⟨extension, t₂, -, h⟩ := Scan.bind_eq_ok h
  obtain ⟨-, t₃, -, h⟩ := Scan.bind_eq_ok h
  obtain ⟨raw, t₄, hraw, h⟩ := Scan.bind_eq_ok h
  cases hparse : parseInfoBytes bendy digests ⟨infoHash.bytes, infoHash.size⟩ raw with
  | error e =>
    rw [hparse] at h
    cases h
  | ok parsed' =>
    rw [hparse] at h
    cases h
    exact ⟨_, t₃, raw, hraw, verifies_of_parseInfoBytes hparse, hparse⟩

variable (hbendy : bendy.Lawful) (hpos : 1 ≤ metadataSize) (hle : metadataSize ≤ maxMetadataSize)
  (peer : SocketAddrV4)

include hbendy hpos hle

/-- **What a result has come from**: the invariant is that the frames read so far
brought the pieces received so far. -/
lemma wp_readAllPieces (s : PeerStream) :
    wp (readAllPieces bendy peer metadataSize)
      (fun raw s' => FramesBounded s s' ∧ raw.length = metadataSize ∧
        ∃ messages pieces, s.unread = messages.flatMap frame ++ s'.unread ∧
          Assembles bendy metadataSize messages pieces ∧ raw = pieces.flatten)
      (fun _ s' => FramesBounded s s') s := by
  refine wp_whileReading (fun p t => FramesBounded s t ∧ ∃ messages items,
    s.unread = messages.flatMap frame ++ t.unread ∧
    (∀ message ∈ messages, message.length ≤ maxMetadataSize) ∧
    List.Forall₂ (Reads bendy metadataSize) messages items ∧
    Received metadataSize items.reduceOption p) ?_ ?_
  swap
  · exact ⟨.refl s, [], [], by simp, by simp, .nil, .start⟩
  rintro p t ⟨hframes, messages, items, hunread, hfit, hreads, hp⟩
  by_cases hdone : p.remaining = 0
  · refine wp_readPieceRound_done peer hp hdone fun pieces hcount hperm => ?_
    refine ⟨hframes, ?_, messages, pieces, hunread, ⟨hfit, hcount, items, hreads, hperm⟩, rfl⟩
    have hlengths : pieces.map List.length =
        (List.range (pieceCount metadataSize)).map (pieceLength metadataSize) := by
      refine List.ext_getElem (by simp [hcount]) fun i hi _ => ?_
      have hlt : i < pieces.length := by simpa using hi
      have hmem := hperm.mem_iff.mpr (Slots.mem_indexed.mpr (List.getElem?_eq_getElem hlt))
      simpa using hp.lengths _ hmem
    rw [List.length_flatten, hlengths, sum_pieceLength hpos]
  · refine Scan.wp_mono (wp_readPieceRound hbendy hpos hle peer hp hdone t) ?_ ?_
    · rintro - t' ⟨p', message, item, rfl, hmessage, hlen, hitem, -, hp', hframes'⟩
      refine ⟨⟨hframes.trans hframes', messages ++ [message], items ++ [item], ?_, ?_, ?_, ?_⟩,
        length_lt_of_frame hmessage⟩
      · rw [flatMap_frame_concat, ← hmessage, hunread]
      · exact List.forall_mem_append.mpr ⟨hfit, List.forall_mem_singleton.mpr hlen⟩
      · exact List.rel_append hreads (.cons hitem .nil)
      · rwa [reduceOption_concat]
    · rintro - t' ⟨-, hframes'⟩
      exact hframes.trans hframes'

/-- The stream still to be read, for a loop that has received `received` of what its
messages bring. -/
structure Ahead (bendy : Bendy) (metadataSize : Nat) (all received : List (Nat × List UInt8))
    (messages : List (List UInt8)) : Prop where
  fit : ∀ message ∈ messages, message.length ≤ maxMetadataSize
  reads : ∃ items, List.Forall₂ (Reads bendy metadataSize) messages items ∧
    all = received ++ items.reduceOption

/-- A round over a known message that brings nothing twice stores what it brings. -/
lemma wp_readPieceRound_ahead {all received : List (Nat × List UInt8)} {p : Pieces}
    {message : List UInt8} (hall : (all.map Prod.fst).Nodup)
    (hahead : Ahead bendy metadataSize all received (message :: messages))
    (hp : Received metadataSize received p) (hmore : p.remaining ≠ 0)
    (hunread : s.unread = frame message ++ rest) :
    wp (readPieceRound bendy peer metadataSize p)
      (fun r s' => ∃ p' received', r = .inl p' ∧ s'.unread = rest ∧
        s'.unread.length < s.unread.length ∧ Received metadataSize received' p' ∧
        Ahead bendy metadataSize all received' messages)
      (fun _ _ => False) s := by
  obtain ⟨hfit, items, hitems, rfl⟩ := hahead
  have hlen := hfit message (by simp)
  cases hitems with
  | @cons _ item _ items hitem hitems =>
    have hsplit : (item :: items).reduceOption = item.toList ++ items.reduceOption := by
      cases item <;> simp
    have hfresh : Fresh received item := by
      intro piece hpiece hmem
      rw [hsplit, List.map_append, List.nodup_append] at hall
      refine hall.2.2 _ hmem _ ?_ rfl
      rw [Option.mem_def.mp hpiece]
      simp
    refine Scan.wp_mono (wp_readPieceRound hbendy hpos hle peer hp hmore s) ?_ ?_
    · rintro - s' ⟨p', m, item', rfl, hm, hmlen, hread, -, hp', -⟩
      obtain ⟨rfl, hrest⟩ := frame_append_inj hmlen hlen (hm.symm.trans hunread)
      obtain rfl := hread.unique hitem
      refine ⟨p', _, rfl, hrest, length_lt_of_frame hm, hp',
        fun m' hm' => hfit m' (by simp [hm']), items, hitems, ?_⟩
      rw [hsplit, List.append_assoc]
    · rintro - s' ⟨hnone, -⟩
      exact hnone message rest item hlen hunread hitem hfresh

/-- **What comes of given messages**: pieces that arrive each once are joined by index,
in whatever order they came. -/
lemma wp_readAllPieces_assembles {pieces : List (List UInt8)}
    (h : Assembles bendy metadataSize messages pieces)
    (hunread : s.unread = messages.flatMap frame ++ rest) :
    wp (readAllPieces bendy peer metadataSize) (fun raw _ => raw = pieces.flatten)
      (fun _ _ => False) s := by
  obtain ⟨hfit, hcount, all, hreads, hperm⟩ := h
  have hlegal := Slots.legal_of_perm hperm
  refine wp_whileReading (fun p t => ∃ left received, t.unread = left.flatMap frame ++ rest ∧
    Ahead bendy metadataSize all.reduceOption received left ∧
    Received metadataSize received p) ?_ ?_
  swap
  · exact ⟨messages, [], hunread, ⟨hfit, all, hreads, rfl⟩, .start⟩
  rintro p t ⟨left, received, ht, hahead, hp⟩
  by_cases hdone : p.remaining = 0
  · refine wp_readPieceRound_done peer hp hdone fun pieces' hcount' hperm' => ?_
    -- the table is full, so nothing that is left brings a piece
    obtain ⟨-, items, -, hitems⟩ := hahead
    have hnil : items.reduceOption = [] := by
      have hlen := hperm.length_eq
      have hlen' := hperm'.length_eq
      rw [hitems, List.length_append] at hlen
      simp only [Slots.indexed, List.length_map, List.length_zipIdx] at hlen hlen'
      exact List.length_eq_zero_iff.mp (by omega)
    rw [hnil, List.append_nil] at hitems
    rw [hitems] at hperm
    have htable := Slots.table_of_perm hperm
    have htable' := Slots.table_of_perm hperm'
    rw [hcount, ← hcount', htable', List.map_inj_right (fun _ _ => Option.some.inj)] at htable
    rw [Sum.elim_inr, htable]
  · cases left with
    | nil =>
      -- with every message read, every piece has arrived
      obtain ⟨-, items, hitems, hall⟩ := hahead
      cases hitems
      rw [List.reduceOption_nil, List.append_nil] at hall
      have hlen := hperm.length_eq
      simp only [Slots.indexed, List.length_map, List.length_zipIdx] at hlen
      have hremaining := hp.remaining
      rw [hall] at hlen
      omega
    | cons message left =>
      rw [List.flatMap_cons, List.append_assoc] at ht
      refine Scan.wp_mono (wp_readPieceRound_ahead hbendy hpos hle peer hlegal.nodup hahead hp
        hdone ht) ?_ fun _ _ hfalse => hfalse
      rintro - t' ⟨p', received', rfl, ht', hlt, hp', hahead'⟩
      exact ⟨⟨left, received', ht', hahead', hp'⟩, hlt⟩

/-- **A refused message ends the request**, wherever before completion it comes. -/
lemma wp_readAllPieces_refused {items : List (Option (Nat × List UInt8))} {bad : List UInt8}
    (hfit : ∀ message ∈ messages ++ [bad], message.length ≤ maxMetadataSize)
    (hreads : List.Forall₂ (Reads bendy metadataSize) messages items)
    (hnodup : (items.reduceOption.map Prod.fst).Nodup)
    (hincomplete : items.reduceOption.length < pieceCount metadataSize)
    (hbad : Refused bendy metadataSize items.reduceOption bad)
    (hunread : s.unread = (messages ++ [bad]).flatMap frame ++ rest) :
    wp (readAllPieces bendy peer metadataSize) (fun _ _ => False) (fun _ _ => True) s := by
  rw [flatMap_frame_concat] at hunread
  refine wp_whileReading (fun p t => ∃ left received,
    t.unread = left.flatMap frame ++ (frame bad ++ rest) ∧
    Ahead bendy metadataSize items.reduceOption received left ∧
    Received metadataSize received p) ?_ ?_
  swap
  · exact ⟨messages, [], hunread, ⟨fun m hm => hfit m (by simp [hm]), items, hreads, rfl⟩, .start⟩
  rintro p t ⟨left, received, ht, hahead, hp⟩
  have hmore : p.remaining ≠ 0 := by
    obtain ⟨-, items', -, hall⟩ := hahead
    have hremaining := hp.remaining
    rw [hall, List.length_append] at hincomplete
    omega
  cases left with
  | nil =>
    -- the refused message is next
    obtain ⟨-, items', hitems, hall⟩ := hahead
    cases hitems
    rw [List.reduceOption_nil, List.append_nil] at hall
    rw [hall] at hbad
    refine Scan.wp_mono (wp_readPieceRound hbendy hpos hle peer hp hmore t) ?_ fun _ _ _ => trivial
    rintro - t' ⟨p', message, item, rfl, hm, hmlen, hread, hfresh, -⟩
    obtain ⟨rfl, -⟩ := frame_append_inj hmlen (hfit bad (by simp)) (hm.symm.trans ht)
    exact absurd hfresh (hbad.not_reads hread)
  | cons message left =>
    rw [List.flatMap_cons, List.append_assoc] at ht
    refine Scan.wp_mono (wp_readPieceRound_ahead hbendy hpos hle peer hnodup hahead hp hmore
      ht) ?_ fun _ _ hfalse => hfalse.elim
    rintro - t' ⟨p', received', rfl, ht', hlt, hp', hahead'⟩
    exact ⟨⟨left, received', ht', hahead', hp'⟩, hlt⟩

end Runs

/-- **Peer-wire metadata assembly.**  Over every byte stream, `read_all_pieces` neither
faults nor allocates a frame buffer above the limit.  A result has the negotiated size
and is the concatenation by index of one data payload for each piece; whatever the
order of the messages that bring the pieces, and whatever is among them, they give
that result; and a message that is refused before completion ends in an error.
`request_over_stream` succeeds only with bytes that have the requested hash. -/
theorem readAllPieces_assembles (bendy : Bendy) (hbendy : bendy.Lawful) {metadataSize : Nat}
    (hpos : 1 ≤ metadataSize) (hle : metadataSize ≤ maxMetadataSize) (peer : SocketAddrV4) :
    (∀ s, (readAllPieces bendy peer metadataSize s).1 ≠ .fault ∧
      FramesBounded s (readAllPieces bendy peer metadataSize s).2) ∧
    (∀ s s' raw, readAllPieces bendy peer metadataSize s = (.ok raw, s') →
      raw.length = metadataSize ∧
      ∃ messages pieces, s.unread = messages.flatMap frame ++ s'.unread ∧
        Assembles bendy metadataSize messages pieces ∧ raw = pieces.flatten) ∧
    (∀ messages pieces rest s, Assembles bendy metadataSize messages pieces →
      s.unread = messages.flatMap frame ++ rest →
      (readAllPieces bendy peer metadataSize s).1 = .ok pieces.flatten) ∧
    (∀ messages items bad rest s,
      (∀ message ∈ messages ++ [bad], message.length ≤ maxMetadataSize) →
      List.Forall₂ (Reads bendy metadataSize) messages items →
      (items.reduceOption.map Prod.fst).Nodup →
      items.reduceOption.length < pieceCount metadataSize →
      Refused bendy metadataSize items.reduceOption bad →
      s.unread = (messages ++ [bad]).flatMap frame ++ rest →
      ∃ e, (readAllPieces bendy peer metadataSize s).1 = .error e) ∧
    (∀ digests infoHash peerId s s' parsed,
      requestOverStream bendy digests peer infoHash peerId s = (.ok parsed, s') →
      ∃ size t raw, readAllPieces bendy peer size t = (.ok raw, s') ∧
        ((digests.sha1 raw).val = infoHash.bytes ∨
          (digests.sha256 raw).val.take 20 = infoHash.bytes) ∧
        parseInfoBytes bendy digests ⟨infoHash.bytes, infoHash.size⟩ raw = .ok parsed) := by
  refine ⟨fun s => ?_, fun s s' raw h => ?_, fun messages pieces rest s h hunread => ?_,
    fun messages items bad rest s hfit hreads hnodup hincomplete hbad hunread => ?_,
    fun digests infoHash peerId s s' parsed h => ?_⟩
  · rcases Scan.cases_of_wp (wp_readAllPieces hbendy hpos hle peer s) with
      ⟨raw, s', hrun, hframes, -⟩ | ⟨e, s', hrun, hframes⟩
    all_goals simp [hrun, hframes]
  · rcases Scan.cases_of_wp (wp_readAllPieces hbendy hpos hle peer s) with
      ⟨raw', s'', hrun, -, hraw⟩ | ⟨e, s'', hrun, -⟩
    · cases h.symm.trans hrun
      exact hraw
    · cases h.symm.trans hrun
  · rcases Scan.cases_of_wp (wp_readAllPieces_assembles hbendy hpos hle peer h hunread) with
      ⟨raw, s', hrun, rfl⟩ | ⟨e, s', -, hfalse⟩
    · rw [hrun]
    · exact hfalse.elim
  · rcases Scan.cases_of_wp (wp_readAllPieces_refused hbendy hpos hle peer hfit hreads hnodup
      hincomplete hbad hunread) with ⟨raw, s', -, hfalse⟩ | ⟨e, s', hrun, -⟩
    · exact hfalse.elim
    · exact ⟨e, by rw [hrun]⟩
  · obtain ⟨size, t, raw, hraw, hhash, hparse⟩ := requestOverStream_eq_ok h
    exact ⟨size, t, raw, hraw, hhash.imp Eq.symm Eq.symm, hparse⟩

/-- The header of a data message for piece `0`. -/
def firstPieceHeader : List UInt8 := asciiBytes "d8:msg_typei1e5:piecei0ee"

/-- `bendy` on what starts with that header. -/
def firstPieceBendy : Bendy where
  nextObject _ input :=
    if input.take firstPieceHeader.length = firstPieceHeader then
      .ok (some (.dict [(asciiBytes "msg_type", .integer [49]), (asciiBytes "piece", .integer [48])]
        none (.ok firstPieceHeader)))
    else .error ⟨"unexpected input"⟩
  decodeObject _ _ := .error ⟨"unexpected input"⟩
  hasTrailingObject _ _ := .error ⟨"unexpected input"⟩

lemma firstPieceBendy_lawful : firstPieceBendy.Lawful := by
  intro depth input pairs broken raw h
  unfold firstPieceBendy at h
  dsimp only at h
  split at h
  · rename_i hfront
    cases h
    have hsplit := List.take_append_drop firstPieceHeader.length input
    rw [hfront] at hsplit
    exact ⟨_, hsplit.symm⟩
  · cases h

/-- A keep-alive, then the only piece of three bytes of metadata. -/
lemma assembles_firstPiece :
    Assembles firstPieceBendy 3 [[], 20 :: 1 :: (firstPieceHeader ++ [7, 8, 9])] [[7, 8, 9]] := by
  have hdecode : decodeMetadataMessage firstPieceBendy (firstPieceHeader ++ [7, 8, 9]) =
      .ok (⟨⟨1, by decide⟩, ⟨0, by decide⟩, none⟩, [7, 8, 9]) := by
    decide
  refine ⟨by decide, by decide, [none, some (0, [7, 8, 9])], ?_, ?_⟩
  · exact .cons (.other (by simp)) (.cons (.data hdecode rfl (by simp) rfl (by decide) rfl) .nil)
  · simp [Slots.indexed]

theorem readAllPieces_assembles_firstPiece :
    (readAllPieces firstPieceBendy ⟨⟨[127, 0, 0, 1], rfl⟩, 6881⟩ 3
      ⟨[[], 20 :: 1 :: (firstPieceHeader ++ [7, 8, 9])].flatMap frame, .unexpectedEof, [], 0,
        .unexpectedEof, []⟩).1 = .ok [7, 8, 9] :=
  (readAllPieces_assembles firstPieceBendy firstPieceBendy_lawful (by decide) (by decide)
    _).2.2.1 _ _ [] _ assembles_firstPiece (by simp)

end Bitmagnet.Crawler
