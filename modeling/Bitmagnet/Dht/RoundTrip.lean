import Bitmagnet.Dht.InboundReads
import Bitmagnet.Dht.Wire

/-!
# The KRPC codec round trip

A message that is encoded and decoded again comes back as its normal form, in which an
all-zero identifier and an empty node list are absent; and a message that was decoded
is in normal form, so it survives another round.

Each dictionary has a table of its fields, indexed by the keys of the decoder.  The
encoder fills a map from it, which `SortedMap.ofEntries_map` reads in the order of
the keys; the decoder reads it entry by entry, and what an entry does to the record
is `copy`.
-/

namespace Bitmagnet.Dht

open Bencode (Value Key encode encodeBytes encodeInteger encodeEntry)

/-! ## Normal forms -/

/-- All-zero identifiers are absent. -/
def MessageArgs.normalize (args : MessageArgs) : MessageArgs :=
  { args with
    infoHash := args.infoHash.filter (· ≠ Id20.zero)
    target := args.target.filter (· ≠ Id20.zero) }

/-- Empty node lists are absent. -/
def MessageReturn.normalize (response : MessageReturn) : MessageReturn :=
  { response with
    nodes := response.nodes.filter (· ≠ [])
    nodes6 := response.nodes6.filter (· ≠ []) }

/-- The normal form of a message. -/
def KrpcMessage.normalize (m : KrpcMessage) : KrpcMessage :=
  { m with
    args := m.args.map MessageArgs.normalize
    response := m.response.map MessageReturn.normalize }

namespace Inbound

/-! ## Scalars and lists -/

section

variable {α β : Type} {Q : α → Prop} {field : String} {depth : Nat}

/-- A byte string starts with a digit. -/
lemma encodeBytes_cons (value : List UInt8) :
    ∃ c rest, encodeBytes value = c :: rest ∧ isAsciiDigit c := by
  obtain ⟨c, rest, hdigits⟩ := List.exists_cons_of_ne_nil (Bencode.decimal_ne_nil value.length)
  refine ⟨c, rest ++ 58 :: value, by rw [encodeBytes, hdigits, List.cons_append], ?_⟩
  exact isAsciiDigit_of_mem_decimal (by rw [hdigits]; exact List.mem_cons_self ..)

/-- Every value starts with something else than the end of a container. -/
lemma starts_encode (v : Value) : Starts (encode v) := by
  cases v with
  | bytes value =>
    obtain ⟨c, rest, henc, hdigit⟩ := encodeBytes_cons value
    refine ⟨c, rest, by rw [encode, henc], ?_⟩
    rintro rfl
    exact absurd hdigit (by decide)
  | integer n => exact ⟨_, _, by rw [encode]; rfl, by decide⟩
  | list | dict => exact ⟨_, _, by rw [encode], by decide⟩

lemma reads_parseScalar {scalar : Inbound (Nat × α)} {expected : InboundShapeKind}
    {levels : Nat} {c : UInt8} {bytes : List UInt8} {P : Nat × α → Prop}
    (h : Reads scalar (c :: bytes) P) (hc : c ≠ ascii 'l') :
    Reads (parseScalar scalar expected field (levels + 1) depth) (c :: bytes) P := by
  unfold parseScalar
  refine reads_peek ?_
  rw [if_pos hc]
  exact h

lemma reads_parseScalarBytes (value : List UInt8) :
    Reads (parseScalarBytes field depth) (encodeBytes value) fun p => p.2 = value := by
  have hbytes : Reads (parseBytes field) (encodeBytes value) _ := reads_parseBytes value
  obtain ⟨c, rest, henc, hdigit⟩ := encodeBytes_cons value
  rw [henc] at hbytes ⊢
  refine reads_parseScalar hbytes ?_
  rintro rfl
  exact absurd hdigit (by decide)

lemma reads_parseScalarInteger (n : I64) :
    Reads (parseScalarInteger field depth) (encodeInteger n) fun p => p.2 = n :=
  reads_parseScalar (reads_parseInteger n) (by decide)

lemma reads_parseCompact {decode : List UInt8 → Outcome CompactCodecError α}
    {bytes : Inbound (Nat × List UInt8)} {value : List UInt8} {a : α}
    (hbytes : Reads bytes (encodeBytes value) fun p => p.2 = value)
    (hdecode : decode value = .ok a) :
    Reads (parseCompact decode bytes) (encodeBytes value) (· = a) := by
  refine hbytes.bind_nil fun p hp => ?_
  obtain ⟨offset, _⟩ := p
  obtain rfl := hp
  refine reads_lift (a := a) ?_ rfl
  rw [hdecode]
  rfl

lemma reads_parseId (id : Id20) : Reads (parseId field depth) (encodeBytes id.bytes) (· = id) :=
  reads_parseCompact (reads_parseScalarBytes _) id.decode_bytes

lemma reads_parseBloom (filter : ScrapeBloomFilter) :
    Reads (parseBloom field) (encodeBytes filter.val) (· = filter) := by
  refine (reads_parseBytes filter.val).bind_nil fun p hp => ?_
  obtain ⟨offset, _⟩ := p
  obtain rfl := hp
  refine reads_lift (a := filter) ?_ rfl
  rw [ScrapeBloomFilter.decode_val]
  rfl

/-- A flag is sent as `1`, which is not `0`. -/
lemma reads_parseBool : Reads (parseBool field depth) (encodeInteger 1) (· = true) := by
  unfold parseBool maxRecursion parseBoolLevels
  refine reads_peek ?_
  rw [if_pos (by decide)]
  refine (reads_parseIntegerRaw (integerRaw_signed 1)).bind_nil fun p hp => ?_
  obtain ⟨offset, _⟩ := p
  obtain rfl := hp
  exact reads_pure (by decide)

lemma foldl_concat (items values : List α) :
    items.foldl (fun values item => values ++ [item]) values = values ++ items := by
  induction items generalizing values with
  | nil => simp
  | cons item items ih => simp [ih]

/-- A list whose entries are read one by one. -/
lemma reads_list {items : List α} {enc : α → Value} {body : List α → Inbound (List α)}
    (hdepth : depth ≤ maxInboundNestingDepth)
    (hbody : ∀ item ∈ items, ∀ values, Reads (body values) (encode (enc item))
      (· = values ++ [item])) :
    Reads (startList field depth >>= fun _ => whileOpen body [])
      (encode (.list (items.map enc))) (· = items) := by
  have hloop := reads_whileOpen (b := []) (fun item _ => starts_encode (enc item)) hbody
  rw [foldl_concat, List.nil_append] at hloop
  have hall : Reads (startList field depth >>= fun _ => whileOpen body [])
      ([ascii 'l'] ++ (items.flatMap (fun item => encode (enc item)) ++ [ascii 'e'])) (· = items) :=
    (reads_startContainer hdepth).bind fun _ _ => hloop
  rw [encode, Bencode.encodeItems_eq, List.flatMap_map]
  exact hall

lemma reads_parseByteList (want : List ByteString) (hdepth : depth ≤ maxInboundNestingDepth) :
    Reads (parseByteList field depth) (encode (.list (want.map .bytes))) (· = want) := by
  refine reads_list hdepth fun item _ values => ?_
  refine reads_add (depth_succ_lt hdepth) ?_
  rw [encode]
  exact (reads_parseScalarBytes item).map fun p hp => by rw [← hp]

lemma reads_parseAddresses (values : List CompactAddr) (hdepth : depth ≤ maxInboundNestingDepth) :
    Reads (parseAddresses depth) (encode (.list (values.map fun addr => .bytes addr.encode)))
      (· = values) := by
  refine reads_list hdepth fun addr _ values => ?_
  rw [encode]
  exact (reads_parseCompact (reads_parseBytes _) addr.decode_encode).map fun a ha => by rw [ha]

lemma reads_parseError (error : KrpcError) (hdepth : depth ≤ maxInboundNestingDepth) :
    Reads (parseError depth) (encode (encodeError error)) (· = error) := by
  obtain ⟨code, message⟩ := error
  have henc : encode (encodeError ⟨code, message⟩) = [ascii 'l'] ++
      (encodeInteger code ++ (encodeBytes message ++ ([ascii 'e'] ++ []))) := by
    simp [encodeError, encode, Bencode.encodeItems]
    exact ⟨rfl, rfl⟩
  rw [henc]
  unfold parseError
  refine reads_peek ?_
  rw [if_neg (by decide), if_pos rfl]
  refine (reads_startContainer hdepth).bind fun _ _ => ?_
  refine reads_endContainer_false ((starts_encode (.integer code)).append _) ?_
  refine (reads_parseInteger code).bind fun p hp => ?_
  obtain ⟨offset, _⟩ := p
  obtain rfl := hp
  refine reads_endContainer_false ((starts_encode (.bytes message)).append _) ?_
  refine (reads_parseBytes message).bind fun p hp => ?_
  obtain ⟨offset, _⟩ := p
  obtain rfl := hp
  -- nothing behind the two entries
  exact (reads_whileOpen_nil ()).bind fun _ _ => reads_pure rfl

/-! ## Dictionaries -/

/-- A key and its value. -/
lemma reads_keyed {key : Inbound (Nat × List UInt8)} (value : List UInt8 → Inbound β)
    {R : β → Prop} {name : List UInt8} {v : Value}
    (hkey : Reads key (encodeBytes name) fun p => p.2 = name)
    (hvalue : Reads (value name) (encode v) R) :
    Reads (key >>= fun p => requireDictionaryValue >>= fun _ => value p.2)
      (encodeEntry (⟨name⟩, v)) R := by
  refine hkey.bind fun p hp => ?_
  rw [hp]
  exact reads_requireDictionaryValue (starts_encode v) hvalue

/-- A dictionary filled from a table of fields: each entry that is there is read, in the order
of the keys. -/
lemma reads_dict {ι : Type} {fields order : List ι} {wire : ι → List UInt8}
    {entry : ι → Option Value} {body : β → Inbound β} {step : β → ι → β} {b : β}
    (hdepth : depth ≤ maxInboundNestingDepth) (hperm : order.Perm fields)
    (hsorted : (order.map fun i => (⟨wire i⟩ : Key)).Pairwise (· < ·))
    (hbody : ∀ i v, entry i = some v → ∀ b, Reads (body b) (encodeEntry (⟨wire i⟩, v))
      (· = step b i)) :
    Reads (startDictionary field depth >>= fun _ => whileOpen body b)
      (encode (.dict (SortedMap.ofEntries (fields.map fun i => (⟨wire i⟩, entry i)))))
      (· = order.foldl (fun b i => if (entry i).isSome then step b i else b) b) := by
  rw [SortedMap.ofEntries_map hperm hsorted, encode, Bencode.encodeEntries_eq,
    SortedMap.flatMap_present, ← List.foldl_filter]
  change Reads _ ([ascii 'd'] ++ _) _
  refine (reads_startContainer hdepth).bind fun _ _ => reads_whileOpen ?_ ?_ b
  · intro i hi
    obtain ⟨v, hv⟩ := Option.isSome_iff_exists.mp (List.mem_filter.mp hi).2
    rw [hv]
    exact (starts_encode (.bytes (wire i))).append (encode v)
  · intro i hi b
    obtain ⟨v, hv⟩ := Option.isSome_iff_exists.mp (List.mem_filter.mp hi).2
    rw [hv]
    exact hbody i v hv b

end

/-! ## Arguments -/

section

variable {depth : Nat}

/-- The fields of `a` in the order they are written down. -/
def argsFields : List ArgsKey :=
  [.id, .infoHash, .target, .token, .port, .impliedPort, .want, .noSeed, .scrape]

/-- The fields of `a` by key. -/
def argsOrder : List ArgsKey :=
  [.id, .impliedPort, .infoHash, .noSeed, .port, .scrape, .target, .token, .want]

/-- What is sent for a field of `a`. -/
def argsEntry (args : MessageArgs) : ArgsKey → Option Value
  | .id => some (.bytes args.id.bytes)
  | .infoHash => (args.infoHash.filter (· ≠ Id20.zero)).map fun value => .bytes value.bytes
  | .target => (args.target.filter (· ≠ Id20.zero)).map fun value => .bytes value.bytes
  | .token => nonEmpty args.token
  | .port => args.port.map fun value => .integer value.val
  | .impliedPort => flag args.impliedPort
  | .want => args.want.map fun want => .list (want.map .bytes)
  | .noSeed => nonZero args.noSeed
  | .scrape => nonZero args.scrape
  | .seq | .cas | .k | .salt | .sig | .v => none

lemma encodeArgs_eq (args : MessageArgs) :
    encodeArgs args =
      .dict (SortedMap.ofEntries (argsFields.map fun key => (⟨key.wire⟩, argsEntry args key))) := rfl

/-- Copy a field, if the condition holds. -/
def copyArgs (src dst : MessageArgs) (cond : Bool) : ArgsKey → MessageArgs
  | .id => { dst with id := if cond then src.id else dst.id }
  | .infoHash => { dst with infoHash := if cond then src.infoHash else dst.infoHash }
  | .target => { dst with target := if cond then src.target else dst.target }
  | .token => { dst with token := if cond then src.token else dst.token }
  | .port => { dst with port := if cond then src.port else dst.port }
  | .impliedPort => { dst with impliedPort := if cond then src.impliedPort else dst.impliedPort }
  | .want => { dst with want := if cond then src.want else dst.want }
  | .noSeed => { dst with noSeed := if cond then src.noSeed else dst.noSeed }
  | .scrape => { dst with scrape := if cond then src.scrape else dst.scrape }
  | .seq | .cas | .k | .salt | .sig | .v => dst

lemma copyArgs_cond (src dst : MessageArgs) (cond : Bool) (key : ArgsKey) :
    (if cond then copyArgs src dst true key else dst) = copyArgs src dst cond key := by
  cases cond <;> cases key <;> rfl

lemma ArgsKey.ofWire_wire (key : ArgsKey) : ArgsKey.ofWire key.wire = some key := by
  cases key <;> decide

variable {v : Value}

/-- An identifier that is sent is not zero. -/
lemma exists_of_sent {id : Option Id20}
    (h : (id.filter (· ≠ Id20.zero)).map (fun value => Value.bytes value.bytes) = some v) :
    ∃ value, id.filter (· ≠ Id20.zero) = some value ∧
      (some value).filter (· ≠ Id20.zero) = some value ∧ v = .bytes value.bytes := by
  obtain ⟨value, hvalue, rfl⟩ := Option.map_eq_some_iff.mp h
  have hne := (Option.filter_eq_some_iff.mp hvalue).2
  exact ⟨value, hvalue, by simpa [Option.filter_some] using hne, rfl⟩

lemma nonEmpty_eq_some {bytes : ByteString} (h : nonEmpty bytes = some v) : v = .bytes bytes := by
  unfold nonEmpty at h
  split at h
  · cases h
  · exact (Option.some.inj h).symm

lemma nonZero_eq_some {n : I64} (h : nonZero n = some v) : v = .integer n := by
  unfold nonZero at h
  split at h
  · cases h
  · exact (Option.some.inj h).symm

lemma flag_eq_some {set : Bool} (h : flag set = some v) : set = true ∧ v = .integer 1 := by
  unfold flag at h
  split at h
  · rename_i hset
    exact ⟨hset, (Option.some.inj h).symm⟩
  · cases h

lemma reads_argsValue {args : MessageArgs} {key : ArgsKey} (h : argsEntry args key = some v)
    (dst : MessageArgs) (hdepth : depth ≤ maxInboundNestingDepth) :
    Reads (argsValue depth dst (some key)) (encode v)
      (· = copyArgs args.normalize dst true key) := by
  cases key with
  | id =>
    obtain rfl := (Option.some.inj h).symm
    exact (reads_parseId args.id).map fun id hid => by rw [hid]; rfl
  | infoHash | target =>
    obtain ⟨value, hsent, hkept, rfl⟩ := exists_of_sent h
    refine (reads_parseId value).map fun id hid => ?_
    rw [hid, hkept, ← hsent]
    rfl
  | token =>
    obtain rfl := nonEmpty_eq_some h
    exact (reads_parseScalarBytes args.token).map fun p hp => by rw [hp]; rfl
  | port =>
    obtain ⟨n, hn, rfl⟩ := Option.map_eq_some_iff.mp h
    refine (reads_parseScalarInteger n).map fun p hp => ?_
    rw [hp, ← hn]
    rfl
  | impliedPort =>
    obtain ⟨hset, rfl⟩ := flag_eq_some h
    refine reads_parseBool.map fun b hb => ?_
    simp [hb, copyArgs, MessageArgs.normalize, hset]
  | want =>
    obtain ⟨want, hwant, rfl⟩ := Option.map_eq_some_iff.mp h
    refine (reads_parseByteList want hdepth).map fun l hl => ?_
    rw [hl, ← hwant]
    rfl
  | noSeed | scrape =>
    obtain rfl := nonZero_eq_some h
    exact (reads_parseScalarInteger _).map fun p hp => by rw [hp]; rfl
  | seq | cas | k | salt | sig | v => cases h

/-- A field that was not copied had its default already. -/
lemma ite_eq_of_absent {α : Type} {cond : Bool} {a b : α} (h : cond = false → b = a) :
    (if cond then a else b) = a := by
  cases cond with
  | true => rfl
  | false => exact h rfl

lemma absent_nonEmpty {bytes : ByteString} (h : (nonEmpty bytes).isSome = false) : [] = bytes := by
  unfold nonEmpty at h
  split at h
  · rename_i hempty
    exact (List.isEmpty_iff.mp hempty).symm
  · cases h

lemma absent_nonZero {n : I64} (h : (nonZero n).isSome = false) : I64.zero = n := by
  unfold nonZero at h
  split at h
  · rename_i hzero
    exact hzero.symm
  · cases h

lemma absent_flag {set : Bool} (h : (flag set).isSome = false) : false = set := by
  cases set with
  | true => cases h
  | false => rfl

lemma absent_map {α β : Type} {x : Option α} {f : α → β} (h : (x.map f).isSome = false) :
    none = x := by
  cases x with
  | none => rfl
  | some a => cases h

/-- What the entries leave of the record the decoder starts from. -/
lemma foldl_copyArgs (args : MessageArgs) :
    argsOrder.foldl (fun dst key => if (argsEntry args key).isSome then
      copyArgs args.normalize dst true key else dst) emptyArgs = args.normalize := by
  simp only [copyArgs_cond]
  apply MessageArgs.ext
  · rfl
  · exact ite_eq_of_absent fun h => absent_map h
  · exact ite_eq_of_absent fun h => absent_map h
  · exact ite_eq_of_absent fun h => absent_nonEmpty h
  · exact ite_eq_of_absent fun h => absent_map h
  · exact ite_eq_of_absent fun h => absent_flag h
  · exact ite_eq_of_absent fun h => absent_map h
  · exact ite_eq_of_absent fun h => absent_nonZero h
  · exact ite_eq_of_absent fun h => absent_nonZero h

lemma argsOrder_sorted : (argsOrder.map fun key => (⟨key.wire⟩ : Key)).Pairwise (· < ·) := by decide

/-- **Arguments.** -/
lemma reads_parseArgs (args : MessageArgs) (hdepth : depth + 1 ≤ maxInboundNestingDepth) :
    Reads (parseArgs depth) (encode (encodeArgs args)) (· = args.normalize) := by
  rw [encodeArgs_eq, ← foldl_copyArgs args]
  refine reads_dict (by omega) (by decide) argsOrder_sorted ?_
  intro key v hv dst
  refine reads_add (depth_succ_lt (by omega)) ?_
  refine reads_keyed (fun name => do argsValue (← add usizeLimit depth 1) dst (ArgsKey.ofWire name))
    (reads_parseScalarBytes key.wire) (reads_add (depth_succ_lt (by omega)) ?_)
  rw [ArgsKey.ofWire_wire]
  exact reads_argsValue hv dst hdepth

end

/-! ## Responses -/

section

variable {depth : Nat}

/-- The fields of `r` in the order they are written down. -/
def returnFields : List ReturnKey :=
  [.id, .bfsd, .bfpe, .nodes, .nodes6, .token, .values, .interval, .num, .samples]

/-- The fields of `r` by key. -/
def returnOrder : List ReturnKey :=
  [.bfpe, .bfsd, .id, .interval, .nodes, .nodes6, .num, .samples, .token, .values]

/-- The nodes of a field, back to back. -/
def nodesValue (nodes : Option (List CompactNode)) : Option Value :=
  nodes.map fun nodes => .bytes (nodes.flatMap CompactNode.encode)

/-- What is sent for a field of `r`. -/
def returnEntry (response : MessageReturn) : ReturnKey → Option Value
  | .id => some (.bytes response.id.bytes)
  | .bfsd => response.seedersBloom.map fun filter => .bytes filter.val
  | .bfpe => response.peersBloom.map fun filter => .bytes filter.val
  | .nodes => nodesValue response.nodes
  | .nodes6 => nodesValue response.nodes6
  | .token => response.token.map .bytes
  | .values => response.values.map fun values => .list (values.map fun addr => .bytes addr.encode)
  | .interval => response.interval.map fun n => .integer n.val
  | .num => response.num.map fun n => .integer n.val
  | .samples => response.samples.map fun samples => .bytes (encodeSamples samples)
  | .seq | .k | .sig | .v => none

/-- The dictionary of a response. -/
def returnDict (response : MessageReturn) : Value :=
  .dict (SortedMap.ofEntries (returnFields.map fun key => (⟨key.wire⟩, returnEntry response key)))

/-- Every node list is of the family of its key. -/
structure OfFamilies (response : MessageReturn) : Prop where
  nodes : ∀ nodes, response.nodes = some nodes → OfFamily false nodes
  nodes6 : ∀ nodes, response.nodes6 = some nodes → OfFamily true nodes

variable {ipv6 : Bool} {nodes : Option (List CompactNode)} {response : MessageReturn}

lemma encodeNodesField_eq_ok (h : ∀ l, nodes = some l → OfFamily ipv6 l) :
    encodeNodesField nodes ipv6 = .ok (nodes.map fun l => l.flatMap CompactNode.encode) := by
  cases nodes with
  | none => rfl
  | some l =>
    rw [encodeNodesField, encodeNodes_eq_ok (h l rfl)]
    rfl

lemma ofFamily_of_encodeNodesField {bytes : Option (List UInt8)}
    (h : encodeNodesField nodes ipv6 = .ok bytes) : ∀ l, nodes = some l → OfFamily ipv6 l := by
  rintro l rfl
  rw [encodeNodesField] at h
  cases hnodes : encodeNodes l ipv6 with
  | ok encoded => exact ofFamily_of_encodeNodes hnodes
  | error e => simp [hnodes] at h
  | fault => simp [hnodes] at h

/-- Responses of the right families are encoded. -/
lemma encodeReturn_eq_ok (h : OfFamilies response) :
    encodeReturn response = .ok (returnDict response) := by
  rw [encodeReturn, encodeNodesField_eq_ok h.nodes, encodeNodesField_eq_ok h.nodes6]
  simp only [Outcome.ok_bind, Option.map_map]
  rfl

/-- Only responses of the right families are encoded. -/
lemma ofFamilies_of_encodeReturn {v : Value} (h : encodeReturn response = .ok v) :
    OfFamilies response := by
  unfold encodeReturn at h
  cases hnodes : encodeNodesField response.nodes false with
  | ok bytes =>
    cases hnodes6 : encodeNodesField response.nodes6 true with
    | ok bytes6 =>
      exact ⟨ofFamily_of_encodeNodesField hnodes, ofFamily_of_encodeNodesField hnodes6⟩
    | error e => simp [hnodes, hnodes6] at h
    | fault => simp [hnodes, hnodes6] at h
  | error e => simp [hnodes] at h
  | fault => simp [hnodes] at h

/-- Copy a field, if the condition holds. -/
def copyReturn (src dst : MessageReturn) (cond : Bool) : ReturnKey → MessageReturn
  | .id => { dst with id := if cond then src.id else dst.id }
  | .bfsd => { dst with seedersBloom := if cond then src.seedersBloom else dst.seedersBloom }
  | .bfpe => { dst with peersBloom := if cond then src.peersBloom else dst.peersBloom }
  | .nodes => { dst with nodes := if cond then src.nodes else dst.nodes }
  | .nodes6 => { dst with nodes6 := if cond then src.nodes6 else dst.nodes6 }
  | .token => { dst with token := if cond then src.token else dst.token }
  | .values => { dst with values := if cond then src.values else dst.values }
  | .interval => { dst with interval := if cond then src.interval else dst.interval }
  | .num => { dst with num := if cond then src.num else dst.num }
  | .samples => { dst with samples := if cond then src.samples else dst.samples }
  | .seq | .k | .sig | .v => dst

lemma copyReturn_cond (src dst : MessageReturn) (cond : Bool) (key : ReturnKey) :
    (if cond then copyReturn src dst true key else dst) = copyReturn src dst cond key := by
  cases cond <;> cases key <;> rfl

lemma ReturnKey.ofWire_wire (key : ReturnKey) : ReturnKey.ofWire key.wire = some key := by
  cases key <;> decide

/-- A node list is decoded to itself, an empty one to none. -/
lemma decodeNodesField_flatMap {nodes : List CompactNode} (h : OfFamily ipv6 nodes) :
    decodeNodesField ipv6 (nodes.flatMap CompactNode.encode) =
      .ok ((some nodes).filter (· ≠ [])) := by
  cases nodes with
  | nil => rfl
  | cons node rest =>
    have hne : ((node :: rest).flatMap CompactNode.encode).isEmpty = false := by
      rw [List.isEmpty_eq_false_iff, List.flatMap_cons, CompactNode.encode]
      intro hnil
      have hlength := congrArg List.length hnil
      simp [node.id.size] at hlength
    rw [decodeNodesField, hne, decodeNodes_flatMap h]
    rfl

lemma reads_nodes {field : String} {nodes : List CompactNode} (h : OfFamily ipv6 nodes) :
    Reads (parseCompact (decodeNodesField ipv6) (parseScalarBytes field depth))
      (encode (.bytes (nodes.flatMap CompactNode.encode)))
      (· = (some nodes).filter (· ≠ [])) :=
  reads_parseCompact (reads_parseScalarBytes _) (decodeNodesField_flatMap h)

lemma reads_returnValue (hfamilies : OfFamilies response) {key : ReturnKey} {v : Value}
    (h : returnEntry response key = some v) (dst : MessageReturn)
    (hdepth : depth ≤ maxInboundNestingDepth) :
    Reads (returnValue depth dst (some key)) (encode v)
      (· = copyReturn response.normalize dst true key) := by
  cases key with
  | id =>
    obtain rfl := (Option.some.inj h).symm
    exact (reads_parseId response.id).map fun id hid => by rw [hid]; rfl
  | nodes =>
    obtain ⟨nodes, hnodes, rfl⟩ := Option.map_eq_some_iff.mp h
    refine (reads_nodes (hfamilies.nodes nodes hnodes)).map fun l hl => ?_
    rw [hl, ← hnodes]
    rfl
  | nodes6 =>
    obtain ⟨nodes, hnodes, rfl⟩ := Option.map_eq_some_iff.mp h
    refine (reads_nodes (hfamilies.nodes6 nodes hnodes)).map fun l hl => ?_
    rw [hl, ← hnodes]
    rfl
  | token =>
    obtain ⟨token, htoken, rfl⟩ := Option.map_eq_some_iff.mp h
    refine (reads_parseScalarBytes token).map fun p hp => ?_
    rw [hp, ← htoken]
    rfl
  | values =>
    obtain ⟨values, hvalues, rfl⟩ := Option.map_eq_some_iff.mp h
    refine (reads_parseAddresses values hdepth).map fun l hl => ?_
    rw [hl, ← hvalues]
    rfl
  | interval | num =>
    obtain ⟨n, hn, rfl⟩ := Option.map_eq_some_iff.mp h
    refine (reads_parseScalarInteger n).map fun p hp => ?_
    rw [hp, ← hn]
    rfl
  | samples =>
    obtain ⟨samples, hsamples, rfl⟩ := Option.map_eq_some_iff.mp h
    refine (reads_parseCompact (reads_parseScalarBytes _)
      (decodeSamples_encodeSamples samples)).map fun l hl => ?_
    rw [hl, ← hsamples]
    rfl
  | bfsd | bfpe =>
    obtain ⟨filter, hfilter, rfl⟩ := Option.map_eq_some_iff.mp h
    refine (reads_parseBloom filter).map fun f hf => ?_
    rw [hf, ← hfilter]
    rfl
  | seq | k | sig | v => cases h

lemma absent_nodes (h : (nodesValue nodes).isSome = false) : none = nodes.filter (· ≠ []) := by
  rw [← absent_map h]
  rfl

lemma foldl_copyReturn (response : MessageReturn) :
    returnOrder.foldl (fun dst key => if (returnEntry response key).isSome then
      copyReturn response.normalize dst true key else dst) emptyReturn = response.normalize := by
  simp only [copyReturn_cond]
  apply MessageReturn.ext
  · rfl
  · exact ite_eq_of_absent fun h => absent_nodes h
  · exact ite_eq_of_absent fun h => absent_nodes h
  all_goals exact ite_eq_of_absent fun h => absent_map h

lemma returnOrder_sorted :
    (returnOrder.map fun key => (⟨key.wire⟩ : Key)).Pairwise (· < ·) := by decide

/-- **Responses.** -/
lemma reads_parseReturn (hfamilies : OfFamilies response)
    (hdepth : depth + 1 ≤ maxInboundNestingDepth) :
    Reads (parseReturn depth) (encode (returnDict response)) (· = response.normalize) := by
  rw [← foldl_copyReturn response]
  refine reads_dict (by omega) (by decide) returnOrder_sorted ?_
  intro key v hv dst
  refine reads_add (depth_succ_lt (by omega)) ?_
  refine reads_keyed
    (fun name => do returnValue (← add usizeLimit depth 1) dst (ReturnKey.ofWire name))
    (reads_parseScalarBytes key.wire) (reads_add (depth_succ_lt (by omega)) ?_)
  rw [ReturnKey.ofWire_wire]
  exact reads_returnValue hfamilies hv dst hdepth

end

/-! ## Messages -/

section

/-- The fields of a message in the order they are written down. -/
def messageFields : List MessageKey := [.t, .y, .q, .a, .r, .e, .ip, .ro, .v]

/-- The fields of a message by key. -/
def messageOrder : List MessageKey := [.a, .e, .ip, .q, .r, .ro, .t, .v, .y]

/-- What is sent for a field of a message. -/
def messageEntry (m : KrpcMessage) : MessageKey → Option Value
  | .t => some (.bytes m.transactionId)
  | .y => some (.bytes m.messageType)
  | .q => nonEmpty m.query
  | .a => m.args.map encodeArgs
  | .r => m.response.map returnDict
  | .e => m.error.map encodeError
  | .ip => m.observedAddr.map fun addr => .bytes addr.encode
  | .ro => flag m.readOnly
  | .v => nonEmpty m.clientId

lemma toValue_eq (m : KrpcMessage) :
    m.toValue (m.response.map returnDict) =
      .dict (SortedMap.ofEntries
        (messageFields.map fun key => (⟨key.wire⟩, messageEntry m key))) := rfl

/-- The response of the message is of the right families. -/
def Encodable (m : KrpcMessage) : Prop := ∀ response, m.response = some response → OfFamilies response

variable {m : KrpcMessage}

lemma encodeResponse_eq_ok (h : Encodable m) :
    encodeResponse m.response = .ok (m.response.map returnDict) := by
  cases hresponse : m.response with
  | none => rfl
  | some response =>
    rw [encodeResponse, encodeReturn_eq_ok (h response hresponse)]
    rfl

lemma encodable_of_encodeResponse {response : Option Value}
    (h : encodeResponse m.response = .ok response) : Encodable m := by
  intro r hr
  rw [hr, encodeResponse] at h
  cases hreturn : encodeReturn r with
  | ok v => exact ofFamilies_of_encodeReturn hreturn
  | error e => simp [hreturn] at h
  | fault => simp [hreturn] at h

/-- Copy a field, if the condition holds. -/
def copyMessage (src dst : KrpcMessage) (cond : Bool) : MessageKey → KrpcMessage
  | .t => { dst with transactionId := if cond then src.transactionId else dst.transactionId }
  | .y => { dst with messageType := if cond then src.messageType else dst.messageType }
  | .q => { dst with query := if cond then src.query else dst.query }
  | .a => { dst with args := if cond then src.args else dst.args }
  | .r => { dst with response := if cond then src.response else dst.response }
  | .e => { dst with error := if cond then src.error else dst.error }
  | .ip => { dst with observedAddr := if cond then src.observedAddr else dst.observedAddr }
  | .ro => { dst with readOnly := if cond then src.readOnly else dst.readOnly }
  | .v => { dst with clientId := if cond then src.clientId else dst.clientId }

lemma copyMessage_cond (src dst : KrpcMessage) (cond : Bool) (key : MessageKey) :
    (if cond then copyMessage src dst true key else dst) = copyMessage src dst cond key := by
  cases cond <;> cases key <;> rfl

lemma MessageKey.ofWire_wire (key : MessageKey) : MessageKey.ofWire key.wire = some key := by
  cases key <;> decide

lemma reads_messageValue (hm : Encodable m) {key : MessageKey} {v : Value}
    (h : messageEntry m key = some v) (dst : KrpcMessage) :
    Reads (messageValue dst (some key)) (encode v) (· = copyMessage m.normalize dst true key) := by
  cases key with
  | t | y =>
    obtain rfl := (Option.some.inj h).symm
    exact (reads_parseScalarBytes _).map fun p hp => by rw [hp]; rfl
  | q | v =>
    obtain rfl := nonEmpty_eq_some h
    exact (reads_parseScalarBytes _).map fun p hp => by rw [hp]; rfl
  | a =>
    obtain ⟨args, hargs, rfl⟩ := Option.map_eq_some_iff.mp h
    refine (reads_parseArgs args (by decide)).map fun a ha => ?_
    simp [ha, copyMessage, KrpcMessage.normalize, hargs]
  | r =>
    obtain ⟨response, hresponse, rfl⟩ := Option.map_eq_some_iff.mp h
    refine (reads_parseReturn (hm response hresponse) (by decide)).map fun r hr => ?_
    simp [hr, copyMessage, KrpcMessage.normalize, hresponse]
  | e =>
    obtain ⟨error, herror, rfl⟩ := Option.map_eq_some_iff.mp h
    refine (reads_parseError error (by decide)).map fun e he => ?_
    rw [he, ← herror]
    rfl
  | ip =>
    obtain ⟨addr, haddr, rfl⟩ := Option.map_eq_some_iff.mp h
    refine (reads_parseCompact (reads_parseBytes _) addr.decode_encode).map fun a ha => ?_
    rw [ha, ← haddr]
    rfl
  | ro =>
    obtain ⟨hset, rfl⟩ := flag_eq_some h
    refine reads_parseBool.map fun b hb => ?_
    simp [hb, copyMessage, KrpcMessage.normalize, hset]

lemma absent_map_map {α β γ : Type} {x : Option α} {f : α → β} (g : α → γ)
    (h : (x.map f).isSome = false) : none = x.map g := by
  rw [← absent_map h]
  rfl

lemma foldl_copyMessage (m : KrpcMessage) :
    messageOrder.foldl (fun dst key => if (messageEntry m key).isSome then
      copyMessage m.normalize dst true key else dst) emptyMessage = m.normalize := by
  simp only [copyMessage_cond]
  apply KrpcMessage.ext
  · rfl
  · rfl
  · exact ite_eq_of_absent fun h => absent_nonEmpty h
  · exact ite_eq_of_absent fun h => absent_map_map _ h
  · exact ite_eq_of_absent fun h => absent_map_map _ h
  · exact ite_eq_of_absent fun h => absent_map h
  · exact ite_eq_of_absent fun h => absent_map h
  · exact ite_eq_of_absent fun h => absent_flag h
  · exact ite_eq_of_absent fun h => absent_nonEmpty h

lemma messageOrder_sorted :
    (messageOrder.map fun key => (⟨key.wire⟩ : Key)).Pairwise (· < ·) := by decide

/-- The dictionary of a message, from its opening to its closing. -/
lemma reads_messageDict (hm : Encodable m) :
    Reads (startDictionary "KRPC message" 1 >>= fun _ => whileOpen (fun message => do
      let (_, key) ← parseScalarBytes "KRPC dictionary key" 2
      requireDictionaryValue
      messageValue message (MessageKey.ofWire key)) emptyMessage)
      (encode (m.toValue (m.response.map returnDict))) (· = m.normalize) := by
  rw [toValue_eq, ← foldl_copyMessage m]
  refine reads_dict (by decide) (by decide) messageOrder_sorted ?_
  intro key v hv dst
  refine reads_keyed (fun name => messageValue dst (MessageKey.ofWire name))
    (reads_parseScalarBytes key.wire) ?_
  rw [MessageKey.ofWire_wire]
  exact reads_messageValue hm hv dst

end

end Inbound

/-! ## Nesting -/

namespace Inbound

/-- A dictionary filled from a table nests one deeper than its entries. -/
lemma within_table {ι : Type} {fields : List ι} {wire : ι → List UInt8}
    {entry : ι → Option Value} {n : Nat} (h : ∀ i v, entry i = some v → v.Within n) :
    Value.Within (n + 1)
      (.dict (SortedMap.ofEntries (fields.map fun i => (⟨wire i⟩, entry i)))) := by
  refine .dict n _ (SortedMap.sorted_ofEntries _) fun e he => ?_
  obtain ⟨i, _, hi⟩ := List.mem_map.mp (SortedMap.mem_of_mem_ofEntries he)
  exact h i e.2 (congrArg Prod.snd hi)

lemma within_bytes_list {α : Type} (items : List α) (f : α → List UInt8) (n : Nat) :
    Value.Within (n + 1) (.list (items.map fun item => .bytes (f item))) := by
  refine .list n _ fun item hitem => ?_
  obtain ⟨a, _, rfl⟩ := List.mem_map.mp hitem
  exact .bytes n _

lemma within_of_map {α : Type} {x : Option α} {f : α → Value} {v : Value} {n : Nat}
    (h : x.map f = some v) (hf : ∀ a, (f a).Within n) : v.Within n := by
  obtain ⟨a, -, rfl⟩ := Option.map_eq_some_iff.mp h
  exact hf a

lemma within_encodeArgs (args : MessageArgs) : (encodeArgs args).Within 2 := by
  rw [encodeArgs_eq]
  refine within_table fun key v hv => ?_
  cases key with
  | id => exact Option.some.inj hv ▸ .bytes 1 _
  | infoHash | target => exact within_of_map hv fun _ => .bytes 1 _
  | token => exact nonEmpty_eq_some hv ▸ .bytes 1 _
  | port => exact within_of_map hv fun _ => .integer 1 _
  | impliedPort => exact (flag_eq_some hv).2 ▸ .integer 1 _
  | want => exact within_of_map hv fun want => within_bytes_list want id 0
  | noSeed | scrape => exact nonZero_eq_some hv ▸ .integer 1 _
  | seq | cas | k | salt | sig | v => cases hv

lemma within_returnDict (response : MessageReturn) : (returnDict response).Within 2 := by
  refine within_table fun key v hv => ?_
  cases key with
  | id => exact Option.some.inj hv ▸ .bytes 1 _
  | nodes | nodes6 | token | samples | bfsd | bfpe => exact within_of_map hv fun _ => .bytes 1 _
  | values => exact within_of_map hv fun values => within_bytes_list values CompactAddr.encode 0
  | interval | num => exact within_of_map hv fun _ => .integer 1 _
  | seq | k | sig | v => cases hv

lemma within_encodeError (error : KrpcError) : (encodeError error).Within 2 := by
  refine .list 1 _ fun item hitem => ?_
  rcases List.mem_pair.mp hitem with rfl | rfl
  · exact .integer 1 _
  · exact .bytes 1 _

/-- A message nests three deep at most: its lists are in dictionaries of its dictionary. -/
lemma within_toValue (m : KrpcMessage) : (m.toValue (m.response.map returnDict)).Within 3 := by
  rw [toValue_eq]
  refine within_table fun key v hv => ?_
  cases key with
  | t | y => exact Option.some.inj hv ▸ .bytes 2 _
  | q | v => exact nonEmpty_eq_some hv ▸ .bytes 2 _
  | a => exact within_of_map hv within_encodeArgs
  | r => exact within_of_map hv within_returnDict
  | e => exact within_of_map hv within_encodeError
  | ip => exact within_of_map hv fun _ => .bytes 2 _
  | ro => exact (flag_eq_some hv).2 ▸ .integer 2 _

end Inbound

/-! ## The round trip -/

namespace KrpcMessage

open Inbound (Encodable returnDict)

/-- The bytes of a message. -/
def wire (m : KrpcMessage) : List UInt8 := Bencode.encode (m.toValue (m.response.map returnDict))

variable {m : KrpcMessage}

lemma encode_eq_ok {emit : Encoder} (hemit : emit.Canonical) (hm : Encodable m) :
    m.encode emit = .ok m.wire := by
  rw [KrpcMessage.encode, Inbound.encodeResponse_eq_ok hm]
  simp only [Outcome.mapError_ok, Outcome.ok_bind, hemit 3 _ (Inbound.within_toValue m)]
  rfl

lemma encodable_of_encode {emit : Encoder} {bytes : List UInt8} (h : m.encode emit = .ok bytes) :
    Encodable m := by
  rw [KrpcMessage.encode] at h
  cases hresponse : encodeResponse m.response with
  | ok response => exact Inbound.encodable_of_encodeResponse hresponse
  | error e => simp [hresponse] at h
  | fault =>
    rw [hresponse] at h
    cases h

/-- What the dictionary of a message is read as is what is decoded. -/
lemma decodeInbound_of_reads {bytes : List UInt8}
    (hdict : Inbound.Reads (Inbound.startDictionary "KRPC message" 1 >>= fun _ =>
      Inbound.whileOpen (fun message => do
        let (_, key) ← Inbound.parseScalarBytes "KRPC dictionary key" 2
        Inbound.requireDictionaryValue
        Inbound.messageValue message (Inbound.MessageKey.ofWire key)) Inbound.emptyMessage)
      bytes (· = m)) (hsize : bytes.length ≤ maxInboundDatagramBytes) :
    decodeInbound bytes = .ok m := by
  have hready : Inbound.Ready (.start bytes) := ⟨hsize, Nat.zero_le _⟩
  have hloop := hdict (.start bytes) [] hready (List.append_nil _).symm
  have hwp : Scan.wp Inbound.parseMessage (fun message _ => message = m)
      (fun e _ => e.IsValueCount) (.start bytes) := by
    unfold Inbound.parseMessage
    rw [Scan.wp_bind] at hloop ⊢
    refine Scan.wp_mono hloop (fun _ s₁ hloop => ?_) fun _ _ he => he
    rw [Scan.wp_bind]
    refine Scan.wp_mono hloop ?_ fun _ _ he => he
    rintro message s₂ ⟨rfl, _, hinput, hoffset⟩
    simp only [Scan.wp_bind, Scan.wp_read, Scan.wp_ensure, Scan.wp_pure]
    refine ⟨fun _ => trivial, fun hnot => absurd ?_ hnot⟩
    rw [hinput, hoffset]
    exact Nat.zero_add _
  have hstop := decodeInboundRun_cases hsize
  unfold decodeInbound
  rw [decodeInboundRun_of_le hsize] at hstop ⊢
  rcases Scan.cases_of_wp hwp with ⟨message, s, hrun, rfl⟩ | ⟨e, s, hrun, he⟩
  · rw [hrun]
  · -- the value limit is the only failure left, and is none of the decoder's
    rcases hstop with ⟨_, _, hrun', -⟩ | ⟨_, _, hrun', hstop⟩
    · cases hrun.symm.trans hrun'
    · cases hrun.symm.trans hrun'
      exact absurd he hstop.reason

/-- The bytes of a message are decoded to its normal form. -/
lemma decodeInbound_wire (hm : Encodable m) (hsize : m.wire.length ≤ maxInboundDatagramBytes) :
    decodeInbound m.wire = .ok m.normalize :=
  decodeInbound_of_reads (Inbound.reads_messageDict hm) hsize

/-- What is decoded is in normal form. -/
lemma normal_of_decodeInbound {input : List UInt8} (h : decodeInbound input = .ok m) :
    m.Normal := by
  unfold decodeInbound at h
  rcases Nat.lt_or_ge maxInboundDatagramBytes input.length with hlong | hfits
  · rw [decodeInboundRun_of_lt hlong] at h
    cases h
  · rcases decodeInboundRun_cases hfits with ⟨message, s, hrun, hnormal, _⟩ | ⟨e, s, hrun, _⟩
    · rw [hrun] at h
      cases h
      exact hnormal
    · rw [hrun] at h
      cases h

lemma Normal.encodable (h : m.Normal) : Encodable m :=
  fun response hresponse =>
    ⟨fun nodes hnodes => ((h.response response hresponse).nodes nodes hnodes).2,
      fun nodes hnodes => ((h.response response hresponse).nodes6 nodes hnodes).2⟩

lemma filter_eq_self {α : Type} [DecidableEq α] {x : Option α} {a : α} (h : x ≠ some a) :
    x.filter (· ≠ a) = x := by
  cases x with
  | none => rfl
  | some b =>
    have hne : b ≠ a := fun heq => h (congrArg some heq)
    simp [Option.filter_some, hne]

lemma Normal.normalize_eq (h : m.Normal) : m.normalize = m := by
  have hargs : m.args.map MessageArgs.normalize = m.args := by
    cases hargs : m.args with
    | none => rfl
    | some args =>
      have hnormal := h.args args hargs
      simp only [Option.map_some, MessageArgs.normalize, filter_eq_self hnormal.infoHash,
        filter_eq_self hnormal.target]
  have hresponse : m.response.map MessageReturn.normalize = m.response := by
    cases hresponse : m.response with
    | none => rfl
    | some response =>
      have hnormal := h.response response hresponse
      have hnodes : response.nodes ≠ some [] := fun heq => (hnormal.nodes _ heq).1 rfl
      have hnodes6 : response.nodes6 ≠ some [] := fun heq => (hnormal.nodes6 _ heq).1 rfl
      simp only [Option.map_some, MessageReturn.normalize, filter_eq_self hnodes,
        filter_eq_self hnodes6]
  rw [KrpcMessage.normalize, hargs, hresponse]

/-- **The codec round trip.**  With an encoder that emits canonical bencode, a message that is
encoded within the datagram limit is decoded to its normal form; and a message that was decoded
is encoded, and decoded from that to itself. -/
theorem round_trip {emit : Encoder} (hemit : emit.Canonical) :
    (∀ m bytes, KrpcMessage.encode emit m = .ok bytes → bytes.length ≤ maxInboundDatagramBytes →
      decodeInbound bytes = .ok m.normalize) ∧
    ∀ input m, decodeInbound input = .ok m →
      ∃ bytes, KrpcMessage.encode emit m = .ok bytes ∧
        (bytes.length ≤ maxInboundDatagramBytes → decodeInbound bytes = .ok m) := by
  constructor
  · intro m bytes hencode hsize
    have hm := encodable_of_encode hencode
    have hwire : bytes = m.wire := Outcome.ok.inj (hencode.symm.trans (encode_eq_ok hemit hm))
    subst hwire
    exact decodeInbound_wire hm hsize
  · intro input m hdecode
    have hnormal := normal_of_decodeInbound hdecode
    refine ⟨m.wire, encode_eq_ok hemit hnormal.encodable, fun hsize => ?_⟩
    rw [decodeInbound_wire hnormal.encodable hsize, hnormal.normalize_eq]

/-- An encoder that emits canonical bencode. -/
def canonicalEncoder : Encoder := fun _ value => .ok (Bencode.encode value)

/-- A query whose target is all zero: the target does not come back. -/
def zeroTarget : KrpcMessage :=
  { Inbound.emptyMessage with
    args := some { Inbound.emptyArgs with target := some .zero }
    query := [112, 105, 110, 103] }

theorem round_trip_zeroTarget :
    Encoder.Canonical canonicalEncoder ∧
    ∃ bytes, KrpcMessage.encode canonicalEncoder zeroTarget = .ok bytes ∧
      decodeInbound bytes = .ok { zeroTarget with args := some Inbound.emptyArgs } := by
  have hcanonical : Encoder.Canonical canonicalEncoder := fun _ _ _ => rfl
  refine ⟨hcanonical, _, rfl, ?_⟩
  exact (round_trip hcanonical).1 zeroTarget _ rfl (by decide)

end KrpcMessage

end Bitmagnet.Dht
