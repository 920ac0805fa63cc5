import Bitmagnet.Library.Bytes
import Bitmagnet.Library.Scan
import Bitmagnet.Dht.Id20

/-!
# Compact addresses, nodes and samples

The model of the codecs in `compact.rs` and of the fixed-width filter of
`scrape.rs`.  The decoders slice and unwrap after a length test; the slices and
the `expect`s are kept as faults, and the `Ensures` lemmas show them unreachable.
-/

namespace Bitmagnet.Dht

open Bytes (slice? toFixed chunksExact)

/-- `ByteString`: opaque bytes. -/
abbrev ByteString := List UInt8

/-- `std::net::IpAddr`, as its octets. -/
inductive IpAddr
  | v4 (octets : Bytes.Fixed UInt8 4)
  | v6 (octets : Bytes.Fixed UInt8 16)
deriving DecidableEq

/-- `IpAddr::is_ipv6`. -/
def IpAddr.isIpv6 : IpAddr → Bool
  | v4 _ => false
  | v6 _ => true

/-- `CompactCodecError`, without the case of the hexadecimal reader. -/
inductive CompactCodecError
  | invalidIdLength (length : Nat)
  | invalidAddressLength (length : Nat)
  | invalidNodeLength (length : Nat)
  | misalignedNodeList (length width : Nat)
  | misalignedInfoHashes (length : Nat)
  | wrongAddressFamily (expected : String)
deriving DecidableEq

/-- `Id20::from_slice` with its error. -/
def Id20.decode (value : List UInt8) : Outcome CompactCodecError Id20 :=
  match Id20.fromSlice value with
  | some id => .ok id
  | none => .error (.invalidIdLength value.length)

/-- Decoding an identifier never faults. -/
lemma Id20.decode_ensures (value : List UInt8) :
    (Id20.decode value).Ensures (fun _ => True) fun _ => True := by
  unfold Id20.decode
  split <;> trivial

/-! ## Addresses -/

/-- `CompactAddr`. -/
structure CompactAddr where
  ip : IpAddr
  port : UInt16
deriving DecidableEq

/-- `u16::to_be_bytes`. -/
def portToBeBytes (port : UInt16) : List UInt8 :=
  [UInt8.ofNat (port.toNat / 256), UInt8.ofNat (port.toNat % 256)]

/-- `u16::from_be_bytes`, of a slice that has to convert to two bytes. -/
def portFromBeBytes : List UInt8 → Option UInt16
  | [high, low] => some (UInt16.ofNat (high.toNat * 256 + low.toNat))
  | _ => none

/-- `CompactAddr::encode`. -/
def CompactAddr.encode (addr : CompactAddr) : List UInt8 :=
  (match addr.ip with
    | .v4 octets => octets.val
    | .v6 octets => octets.val) ++ portToBeBytes addr.port

/-- `CompactAddr::decode`. -/
def CompactAddr.decode (value : List UInt8) : Outcome CompactCodecError CompactAddr := do
  if value.length = 6 then
    let octets ← .ofOption ((slice? value 0 4).bind (toFixed 4))
    let port ← .ofOption ((slice? value 4 value.length).bind portFromBeBytes)
    pure ⟨.v4 octets, port⟩
  else if value.length = 18 then
    let octets ← .ofOption ((slice? value 0 16).bind (toFixed 16))
    let port ← .ofOption ((slice? value 16 value.length).bind portFromBeBytes)
    pure ⟨.v6 octets, port⟩
  else .error (.invalidAddressLength value.length)

@[simp] lemma length_portToBeBytes (port : UInt16) : (portToBeBytes port).length = 2 := rfl

lemma portFromBeBytes_toBeBytes (port : UInt16) :
    portFromBeBytes (portToBeBytes port) = some port := by
  have hlt : port.toNat < 65536 := port.toNat_lt
  have hhigh : (UInt8.ofNat (port.toNat / 256)).toNat = port.toNat / 256 :=
    UInt8.toNat_ofNat_of_lt' (by simp [UInt8.size]; omega)
  have hlow : (UInt8.ofNat (port.toNat % 256)).toNat = port.toNat % 256 :=
    UInt8.toNat_ofNat_of_lt' (by simp [UInt8.size]; omega)
  simp only [portFromBeBytes, portToBeBytes, hhigh, hlow, Option.some.injEq]
  rw [Nat.mul_comm, Nat.div_add_mod]
  exact UInt16.ofNat_toNat

/-- The width of an encoded address. -/
lemma CompactAddr.length_encode (addr : CompactAddr) :
    addr.encode.length = if addr.ip.isIpv6 then 18 else 6 := by
  rcases addr with ⟨⟨octets⟩ | ⟨octets⟩, port⟩
  · simp [encode, IpAddr.isIpv6, octets.property]
  · simp [encode, IpAddr.isIpv6, octets.property]

/-- **Addresses round-trip.** -/
lemma CompactAddr.decode_encode (addr : CompactAddr) :
    CompactAddr.decode addr.encode = .ok addr := by
  rcases addr with ⟨octets | octets, port⟩
  all_goals
    have hsize : octets.val.length = _ := octets.property
    have hfront := Bytes.slice?_append_left octets.val (portToBeBytes port)
    have hback := Bytes.slice?_append_right octets.val (portToBeBytes port)
    rw [List.length_append, hsize, length_portToBeBytes] at hback
    rw [hsize] at hfront
    simp only [Nat.reduceAdd] at hback
    simp [decode, encode, hfront, hback, portFromBeBytes_toBeBytes, hsize]

variable {value : List UInt8} {ipv6 : Bool}

lemma slice?_toFixed_isSome {n m : Nat} (h : value.length = n + m) :
    ∃ octets, (slice? value 0 n).bind (toFixed n) = some octets := by
  rw [Bytes.slice?_eq_some (by omega) (by omega)]
  exact ⟨_, Bytes.toFixed_isSome (by simp; omega)⟩

lemma portFromBeBytes_isSome {n : Nat} (h : value.length = n + 2) :
    ∃ port, (slice? value n value.length).bind portFromBeBytes = some port := by
  rw [Bytes.slice?_eq_some (by omega) (by omega), Option.bind_some]
  have hlen : ((value.drop n).take (value.length - n)).length = 2 := by simp; omega
  obtain ⟨high, low, hlist⟩ := List.length_eq_two.mp hlen
  exact ⟨_, by rw [hlist]; rfl⟩

/-- Decoding an address never faults; a result has the family of its width. -/
lemma CompactAddr.decode_ensures (value : List UInt8) :
    (CompactAddr.decode value).Ensures
      (fun addr => value.length = if addr.ip.isIpv6 then 18 else 6) fun _ => True := by
  unfold decode
  by_cases h6 : value.length = 6
  · obtain ⟨octets, ho⟩ := slice?_toFixed_isSome (n := 4) (m := 2) h6
    obtain ⟨port, hp⟩ := portFromBeBytes_isSome (n := 4) h6
    simp [h6, ho, IpAddr.isIpv6] at hp ⊢
    simp [hp]
  by_cases h18 : value.length = 18
  · obtain ⟨octets, ho⟩ := slice?_toFixed_isSome (n := 16) (m := 2) h18
    obtain ⟨port, hp⟩ := portFromBeBytes_isSome (n := 16) h18
    simp [h18, ho, IpAddr.isIpv6] at hp ⊢
    simp [hp]
  · simp [h6, h18]

/-! ## Nodes -/

/-- `CompactNode`. -/
structure CompactNode where
  id : Id20
  addr : CompactAddr
deriving DecidableEq

/-- `CompactNode::encode`. -/
def CompactNode.encode (node : CompactNode) : List UInt8 := node.id.bytes ++ node.addr.encode

/-- `CompactNode::decode`. -/
def CompactNode.decode (value : List UInt8) : Outcome CompactCodecError CompactNode := do
  if value.length = 26 ∨ value.length = 38 then
    let idBytes ← .ofOption (slice? value 0 20)
    let id ← Id20.decode idBytes
    let addrBytes ← .ofOption (slice? value 20 value.length)
    let addr ← CompactAddr.decode addrBytes
    pure ⟨id, addr⟩
  else .error (.invalidNodeLength value.length)

/-- The width of one node of a family. -/
def nodeWidth (ipv6 : Bool) : Nat := if ipv6 then 38 else 26

/-- `encode_nodes`: all of one family, or an error. -/
def encodeNodes (nodes : List CompactNode) (ipv6 : Bool) : Outcome CompactCodecError (List UInt8) :=
  match nodes with
  | [] => .ok []
  | node :: rest =>
    if node.addr.ip.isIpv6 ≠ ipv6 then
      .error (.wrongAddressFamily (if ipv6 then "IPv6" else "IPv4"))
    else (node.encode ++ ·) <$> encodeNodes rest ipv6

/-- `decode_nodes`. -/
def decodeNodes (value : List UInt8) (ipv6 : Bool) :
    Outcome CompactCodecError (List CompactNode) :=
  if value.length % nodeWidth ipv6 ≠ 0 then
    .error (.misalignedNodeList value.length (nodeWidth ipv6))
  else Outcome.collect ((chunksExact (nodeWidth ipv6) value).map CompactNode.decode)

/-- Every node of the list is of the family. -/
def OfFamily (ipv6 : Bool) (nodes : List CompactNode) : Prop :=
  ∀ node ∈ nodes, node.addr.ip.isIpv6 = ipv6

lemma CompactNode.length_encode {node : CompactNode} (h : node.addr.ip.isIpv6 = ipv6) :
    node.encode.length = nodeWidth ipv6 := by
  simp only [encode, List.length_append, node.id.size, node.addr.length_encode, h, nodeWidth]
  cases ipv6 <;> rfl

@[simp] lemma Id20.decode_bytes (id : Id20) : Id20.decode id.bytes = .ok id := by
  simp [Id20.decode]

/-- **Nodes round-trip.** -/
lemma CompactNode.decode_encode (node : CompactNode) :
    CompactNode.decode node.encode = .ok node := by
  have hfront := Bytes.slice?_append_left node.id.bytes node.addr.encode
  have hback := Bytes.slice?_append_right node.id.bytes node.addr.encode
  rw [node.id.size] at hfront hback
  have hlen : node.encode.length = 26 ∨ node.encode.length = 38 := by
    rw [CompactNode.length_encode rfl]
    cases node.addr.ip.isIpv6 <;> simp [nodeWidth]
  rw [decode, if_pos hlen, encode, hfront, hback]
  simp [node.addr.decode_encode]

variable {nodes : List CompactNode}

/-- A node list of one family encodes to the concatenation of its nodes. -/
lemma encodeNodes_eq_ok (h : OfFamily ipv6 nodes) :
    encodeNodes nodes ipv6 = .ok (nodes.flatMap CompactNode.encode) := by
  induction nodes with
  | nil => rfl
  | cons node rest ih =>
    have hnode : node.addr.ip.isIpv6 = ipv6 := h node (by simp)
    have hrest := ih fun n hn => h n (by simp [hn])
    simp [encodeNodes, hnode, hrest]

/-- Only a list of one family encodes. -/
lemma ofFamily_of_encodeNodes {bytes : List UInt8} (h : encodeNodes nodes ipv6 = .ok bytes) :
    OfFamily ipv6 nodes := by
  induction nodes generalizing bytes with
  | nil => simp [OfFamily]
  | cons node rest ih =>
    simp only [encodeNodes] at h
    split at h
    · cases h
    · rename_i hfam
      cases hrest : encodeNodes rest ipv6 with
      | ok tail =>
        intro n hn
        rcases List.mem_cons.mp hn with rfl | hn
        · simpa using hfam
        · exact ih hrest n hn
      | error e => simp [hrest] at h
      | fault => simp [hrest] at h

lemma nodeWidth_pos (ipv6 : Bool) : 0 < nodeWidth ipv6 := by
  cases ipv6 <;> decide

/-- **Node lists of one family round-trip.** -/
lemma decodeNodes_flatMap (h : OfFamily ipv6 nodes) :
    decodeNodes (nodes.flatMap CompactNode.encode) ipv6 = .ok nodes := by
  have hwidth : ∀ node ∈ nodes, node.encode.length = nodeWidth ipv6 :=
    fun node hn => CompactNode.length_encode (h node hn)
  have hlen : (nodes.flatMap CompactNode.encode).length = nodes.length * nodeWidth ipv6 := by
    rw [List.length_flatMap, List.map_congr_left hwidth]
    simp
  simp only [decodeNodes, hlen, Nat.mul_mod_left, ne_eq, not_true_eq_false, if_false]
  rw [Bytes.chunksExact_flatMap (nodeWidth_pos ipv6) hwidth, List.map_map]
  exact (Outcome.collect_map_ok (g := id) fun node _ => node.decode_encode).trans (by simp)

/-- Decoding a node never faults, and its family is the one of its width. -/
lemma CompactNode.decode_ensures (h : value.length = nodeWidth ipv6) :
    (CompactNode.decode value).Ensures (fun node => node.addr.ip.isIpv6 = ipv6) fun _ => True := by
  have hlen : value.length = 26 ∨ value.length = 38 := by
    cases ipv6 <;> simp [h, nodeWidth]
  have hge : 20 ≤ value.length := by omega
  have hid : ((value.drop 0).take (20 - 0)).length = 20 := by simp; omega
  have haddr : ((value.drop 20).take (value.length - 20)).length = value.length - 20 := by simp
  rw [decode, if_pos hlen, Bytes.slice?_eq_some (by omega) hge,
    Bytes.slice?_eq_some hge (le_refl _)]
  simp only [Outcome.ofOption_some, Outcome.ok_bind, Id20.decode, Id20.fromSlice, hid, dif_pos]
  have hdec := CompactAddr.decode_ensures ((value.drop 20).take (value.length - 20))
  cases hres : CompactAddr.decode ((value.drop 20).take (value.length - 20)) with
  | ok addr =>
    rw [hres, Outcome.ensures_ok, haddr, h] at hdec
    cases ipv6 <;> cases hip : addr.ip.isIpv6 <;> simp [nodeWidth, hip] at hdec ⊢
  | error e => simp
  | fault => simp [hres] at hdec

/-- Decoding a node list never faults; the nodes are of the family asked for, as
many as the width fits into the bytes. -/
lemma decodeNodes_ensures (value : List UInt8) (ipv6 : Bool) :
    (decodeNodes value ipv6).Ensures
      (fun nodes => OfFamily ipv6 nodes ∧ value.length = nodes.length * nodeWidth ipv6)
      fun _ => True := by
  unfold decodeNodes
  split
  · trivial
  · rename_i hmod
    have hall : ∀ x ∈ (chunksExact (nodeWidth ipv6) value).map CompactNode.decode,
        x.Ensures (fun node => node.addr.ip.isIpv6 = ipv6) fun _ => True := by
      intro x hx
      obtain ⟨chunk, hchunk, rfl⟩ := List.mem_map.mp hx
      exact CompactNode.decode_ensures (Bytes.length_of_mem_chunksExact hchunk)
    refine (Outcome.ensures_collect hall).mono (fun nodes hn => ⟨hn.2, ?_⟩) fun _ h => h
    rw [hn.1, List.length_map, Bytes.length_chunksExact]
    exact (Nat.div_mul_cancel (Nat.dvd_of_mod_eq_zero (not_not.mp hmod))).symm

/-! ## Samples and filters -/

/-- `encode_samples`. -/
def encodeSamples (samples : List Id20) : List UInt8 := samples.flatMap Id20.bytes

/-- `decode_samples`: whole identifiers only. -/
def decodeSamples (value : List UInt8) : Outcome CompactCodecError (List Id20) :=
  if value.length % 20 ≠ 0 then .error (.misalignedInfoHashes value.length)
  else Outcome.collect ((chunksExact 20 value).map fun chunk => .ofOption (Id20.fromSlice chunk))

/-- **Samples round-trip.** -/
lemma decodeSamples_encodeSamples (samples : List Id20) :
    decodeSamples (encodeSamples samples) = .ok samples := by
  have hwidth : ∀ id ∈ samples, id.bytes.length = 20 := fun id _ => id.size
  have hlen : (encodeSamples samples).length = samples.length * 20 := by
    rw [encodeSamples, List.length_flatMap, List.map_congr_left hwidth]
    simp
  simp only [decodeSamples, hlen, Nat.mul_mod_left, ne_eq, not_true_eq_false, if_false]
  rw [encodeSamples, Bytes.chunksExact_flatMap (by decide) hwidth, List.map_map]
  exact (Outcome.collect_map_ok (g := id) fun sample _ => by simp).trans (by simp)

/-- Decoding samples never faults. -/
lemma decodeSamples_ensures (value : List UInt8) :
    (decodeSamples value).Ensures (fun _ => True) fun _ => True := by
  unfold decodeSamples
  split
  · trivial
  · have hall : ∀ x ∈ (chunksExact 20 value).map
          fun chunk => (.ofOption (Id20.fromSlice chunk) : Outcome CompactCodecError Id20),
        x.Ensures (fun _ => True) fun _ => True := by
      intro x hx
      obtain ⟨chunk, hchunk, rfl⟩ := List.mem_map.mp hx
      simp [Id20.fromSlice, Bytes.length_of_mem_chunksExact hchunk]
    exact (Outcome.ensures_collect hall).mono (fun _ _ => trivial) fun _ h => h

/-- `SCRAPE_BLOOM_BYTES`. -/
def scrapeBloomBytes : Nat := 256

/-- `ScrapeBloomFilter`. -/
abbrev ScrapeBloomFilter := Bytes.Fixed UInt8 scrapeBloomBytes

/-- `ScrapeBloomError`. -/
inductive ScrapeBloomError
  | invalidLength (length : Nat)
deriving DecidableEq

/-- `ScrapeBloomFilter::from_slice`. -/
def ScrapeBloomFilter.decode (value : List UInt8) : Outcome ScrapeBloomError ScrapeBloomFilter :=
  match toFixed scrapeBloomBytes value with
  | some filter => .ok filter
  | none => .error (.invalidLength value.length)

/-- Decoding a filter never faults. -/
lemma ScrapeBloomFilter.decode_ensures (value : List UInt8) :
    (ScrapeBloomFilter.decode value).Ensures (fun _ => True) fun _ => True := by
  unfold ScrapeBloomFilter.decode
  split <;> trivial

@[simp] lemma ScrapeBloomFilter.decode_val (filter : ScrapeBloomFilter) :
    ScrapeBloomFilter.decode filter.val = .ok filter := by
  simp [ScrapeBloomFilter.decode]

end Bitmagnet.Dht
