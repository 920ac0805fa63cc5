import Mathlib.Data.Nat.Size
import Mathlib.Algebra.Group.Nat.Defs
import Mathlib.Algebra.GroupWithZero.Nat
import Mathlib.Algebra.BigOperators.Group.List.Basic
import Mathlib.Order.Basic
import Bitmagnet.Library.Scan

/-!
# File blobs

`blob.rs` of `bitmagnet-model`: the files of a torrent, as MessagePack in a zstd frame, decoded with
a bound on the decompressed bytes and one on the files.

The `zstd` and `rmp_serde` crates are not part of the repository.  `Zstd` and `Rmp` have one field
for each way they are used, and `Zstd.Lawful` and `Rmp.Lawful` what is documented of them: a decoder
hands out the decompressed bytes in pieces of its own choice (`Delivers`), and a sequence its
elements in order (`Rmp.Holds`).  An allocation may be refused, which `Memory` decides.

The read loop keeps an account of what it asks for, from the reader and from the allocator.
-/

namespace Bitmagnet.Blob

open Scan (update fail iterate)

/-- `usize::MAX`. -/
def usizeMax : Nat := 2 ^ 64 - 1

/-- `saturating_add`. -/
def saturatingAdd (a b : Nat) : Nat := min (a + b) usizeMax

/-- `saturating_mul`. -/
def saturatingMul (a b : Nat) : Nat := min (a * b) usizeMax

/-- `BlobFile`. -/
structure BlobFile where
  index : UInt32
  path : String
  extension : String
  size : UInt64
deriving DecidableEq

/-- `owned_string_bytes` of a file. -/
def BlobFile.ownedStringBytes (file : BlobFile) : Nat :=
  saturatingAdd file.path.utf8ByteSize file.extension.utf8ByteSize

/-- `DecodedFiles`. -/
structure DecodedFiles where
  files : List BlobFile
  decompressedBytes : Nat
  ownedStringBytes : Nat
deriving DecidableEq

/-- `io::Error`, as the text it displays. -/
structure IoError where
  text : String
deriving DecidableEq

/-- `rmp_serde::decode::Error`, as the text it displays. -/
structure DecodeError where
  text : String
deriving DecidableEq

/-- `TryReserveError`. -/
inductive TryReserveError
  | capacityOverflow
  | allocError
deriving DecidableEq

/-- The text a `TryReserveError` displays. -/
def TryReserveError.text : TryReserveError → String
  | capacityOverflow =>
    "memory allocation failed because the computed capacity exceeded the collection's maximum"
  | allocError => "memory allocation failed because the memory allocator returned an error"

/-- `BlobError`, in the cases decoding has. -/
inductive BlobError
  | zstd (error : IoError)
  | decode (error : DecodeError)
  | allocation (error : TryReserveError)
  | decompressedLimitExceeded (limit : Nat)
  | fileCountLimitExceeded (count limit : Nat)
deriving DecidableEq

/-- Why a buffer for so many bytes, or for so many files, is refused, if it is. -/
structure Memory where
  bytes : Nat → Option TryReserveError
  files : Nat → Option TryReserveError

/-- Every allocation succeeds. -/
def Memory.Ample (memory : Memory) : Prop :=
  (∀ n, memory.bytes n = none) ∧ ∀ n, memory.files n = none

/-! ## Reading -/

/-- What the read loop asks for: `read` with a buffer of `requested` bytes when `received` have been
kept, and a buffer of `size` bytes in all. -/
inductive Effect
  | request (received requested : Nat)
  | reserve (size : Nat)
deriving DecidableEq

/-- The variables of `read_decompressed_bounded`; `raw` and `capacity` are those of its vector. -/
structure ReadState (ρ : Type) where
  reader : ρ
  raw : List UInt8
  capacity : Nat
  effects : List Effect

section Reading

variable {ρ : Type} (read : ρ → Nat → Except IoError (List UInt8 × ρ)) (memory : Memory)

/-- `CHUNK_BYTES`. -/
def chunkBytes : Nat := 64 * 1024

/-- `reader.read` into a buffer of `n` bytes. -/
def request (n : Nat) : Scan (ReadState ρ) BlobError (List UInt8) := fun s =>
  let effects := s.effects ++ [.request s.raw.length n]
  match read s.reader n with
  | .ok (chunk, reader) => (.ok chunk, { s with reader, effects })
  | .error error => (.error (.zstd error), { s with effects })

/-- The vector gets a buffer of `size` bytes, if there is room. -/
def reserve (size : Nat) : Scan (ReadState ρ) BlobError Unit := fun s =>
  let effects := s.effects ++ [.reserve size]
  match memory.bytes size with
  | none => (.ok (), { s with capacity := size, effects })
  | some error => (.error (.allocation error), { s with effects })

/-- The branch of the loop that makes room for `count` bytes. -/
def makeRoom (limit count : Nat) : Scan (ReadState ρ) BlobError Unit := do
  let s ← Scan.read
  let needed := saturatingAdd s.raw.length count
  if s.capacity < needed then
    let doubled := if s.capacity = 0 then chunkBytes else saturatingMul s.capacity 2
    let target := min (max doubled needed) limit
    -- `try_reserve_exact` looks for itself whether there is room
    if s.capacity - s.raw.length < target - s.raw.length then
      reserve memory (s.raw.length + (target - s.raw.length))
    else pure ()
  else pure ()

/-- `extend_from_slice`, which takes a larger buffer of its own where the vector has no room. -/
def extendFromSlice (chunk : List UInt8) : Scan (ReadState ρ) BlobError Unit := do
  let s ← Scan.read
  if s.capacity < s.raw.length + chunk.length then
    reserve memory (max (2 * s.capacity) (s.raw.length + chunk.length))
  else pure ()
  update fun s => { s with raw := s.raw ++ chunk }

/-- One round of the loop, and behind it the probe for one byte more. -/
def readRound (limit : Nat) : Scan (ReadState ρ) BlobError (Unit ⊕ List UInt8) := do
  let s ← Scan.read
  if s.raw.length < limit then
    let chunk ← request read (min (limit - s.raw.length) chunkBytes)
    if chunk = [] then pure (.inr s.raw)
    else
      makeRoom memory limit chunk.length
      extendFromSlice memory chunk
      pure (.inl ())
  else
    let probe ← request read 1
    if probe = [] then pure (.inr s.raw) else fail (.decompressedLimitExceeded limit)

/-- `read_decompressed_bounded`.  Every round but the last adds a byte, so the bound on the rounds
is never met. -/
def readDecompressedBounded (limit : Nat) : Scan (ReadState ρ) BlobError (List UInt8) :=
  iterate (fun _ => readRound read memory limit) (limit + 1) ()

end Reading

/-- The variables at the start. -/
def ReadState.start {ρ : Type} (reader : ρ) : ReadState ρ := ⟨reader, [], 0, []⟩

/-! ## The two crates -/

/-- The `zstd` crate, with the decoder's state. -/
structure Zstd (ρ : Type) where
  /-- `decode_all` -/
  decodeAll : List UInt8 → Except IoError (List UInt8)
  /-- the logarithm of the window that the frame asks for -/
  windowLog : List UInt8 → Nat
  /-- `Decoder::new` -/
  decoder : List UInt8 → Except IoError ρ
  /-- `window_log_max` -/
  windowLogMax : ρ → Nat → Except IoError ρ
  /-- `read` of the decoder -/
  read : ρ → Nat → Except IoError (List UInt8 × ρ)

/-- The `rmp_serde` crate, with the state of a sequence that is being read. -/
structure Rmp (δ : Type) where
  /-- `from_slice` at `Vec<BlobFile>` -/
  fromSlice : List UInt8 → Except DecodeError (List BlobFile)
  /-- `deserialize_seq`, up to the call of the visitor -/
  deserializeSeq : List UInt8 → Except DecodeError δ
  /-- `size_hint` -/
  sizeHint : δ → Option Nat
  /-- `next_element` at `BlobFile` -/
  nextElement : δ → Except DecodeError (Option BlobFile × δ)
  /-- `next_element` at `IgnoredAny`, and whether there was one -/
  nextIgnored : δ → Except DecodeError (Bool × δ)
  /-- `deserialize_seq`, behind the call of the visitor -/
  finish : δ → Except DecodeError Unit

/-! ## Visiting -/

/-- The variables of `visit_seq`, and the cell `limit_hit`. -/
structure VisitState (δ : Type) where
  sequence : δ
  files : List BlobFile
  capacity : Nat
  limitHit : Option Nat

/-- `A::Error::custom("torrent file count exceeds decode limit")`. -/
def limitError : DecodeError := ⟨"torrent file count exceeds decode limit"⟩

section Visiting

variable {δ : Type} (rmp : Rmp δ) (memory : Memory)

/-- A call on the sequence. -/
def access {α : Type} (call : δ → Except DecodeError (α × δ)) :
    Scan (VisitState δ) DecodeError α := fun s =>
  match call s.sequence with
  | .ok (value, sequence) => (.ok value, { s with sequence })
  | .error error => (.error error, s)

/-- `limit_hit.set`, and the error behind it. -/
def hitLimit {α : Type} (count : Nat) : Scan (VisitState δ) DecodeError α := do
  update fun s => { s with limitHit := some count }
  fail limitError

/-- The branch of the loop that makes room for files. -/
def growFiles (maxFiles : Nat) : Scan (VisitState δ) DecodeError Unit := do
  let s ← Scan.read
  if s.files.length = s.capacity then
    let growth := min (max s.capacity 16) (maxFiles - s.files.length)
    match memory.files (s.files.length + growth) with
    | none => update fun s => { s with capacity := s.files.length + growth }
    | some error => fail ⟨error.text⟩
  else pure ()

/-- One round of the loop of `visit_seq`. -/
def visitRound (maxFiles : Nat) :
    Scan (VisitState δ) DecodeError (Unit ⊕ List BlobFile) := do
  let s ← Scan.read
  if maxFiles ≤ s.files.length then
    if ← access rmp.nextIgnored then hitLimit (saturatingAdd s.files.length 1)
    else pure (.inr s.files)
  else
    growFiles memory maxFiles
    match ← access rmp.nextElement with
    | some file =>
      update fun s => { s with files := s.files ++ [file] }
      pure (.inl ())
    | none => pure (.inr s.files)

/-- `visit_seq`.  Every round but the last adds a file, up to `max_files`. -/
def visitSeq (maxFiles : Nat) : Scan (VisitState δ) DecodeError (List BlobFile) := do
  let s ← Scan.read
  let sizeHint := (rmp.sizeHint s.sequence).getD 0
  if maxFiles < sizeHint then hitLimit sizeHint
  else iterate (fun _ => visitRound rmp memory maxFiles) (maxFiles + 1) ()

end Visiting

/-! ## Decoding -/

section

variable {ρ δ : Type} (zstd : Zstd ρ) (rmp : Rmp δ) (memory : Memory)

/-- `?` on a result of the `zstd` crate. -/
def zstdResult {α : Type} : Except IoError α → Outcome BlobError α
  | .ok a => .ok a
  | .error error => .error (.zstd error)

/-- `?` on a result of the `rmp_serde` crate. -/
def decodeResult {α : Type} : Except DecodeError α → Outcome BlobError α
  | .ok a => .ok a
  | .error error => .error (.decode error)

/-- `deserialize_files`. -/
def deserializeFiles (data : List UInt8) : Outcome BlobError (List BlobFile) := do
  let raw ← zstdResult (zstd.decodeAll data)
  decodeResult (rmp.fromSlice raw)

/-- `window_log_for_limit`. -/
def windowLogForLimit (limit : Nat) : Nat := max 23 (min 31 (max limit 1 - 1).size)

/-- The call of the deserializer in `deserialize_files_bounded`, and what it makes of an error. -/
def deserializeSeed (maxFiles : Nat) (raw : List UInt8) : Outcome BlobError (List BlobFile) := do
  let sequence ← decodeResult (rmp.deserializeSeq raw)
  match visitSeq rmp memory maxFiles ⟨sequence, [], 0, none⟩ with
  | (.ok files, s) => do
    decodeResult (rmp.finish s.sequence)
    .ok files
  | (.error error, s) =>
    match s.limitHit with
    | some count => .error (.fileCountLimitExceeded count maxFiles)
    | none => .error (.decode error)
  | (.fault, _) => .fault

/-- `deserialize_files_bounded`. -/
def deserializeFilesBounded (data : List UInt8) (maxDecompressedBytes maxFiles : Nat) :
    Outcome BlobError DecodedFiles := do
  let decoder ← zstdResult (zstd.decoder data)
  let decoder ← zstdResult (zstd.windowLogMax decoder (windowLogForLimit maxDecompressedBytes))
  let raw ← (readDecompressedBounded zstd.read memory maxDecompressedBytes (.start decoder)).1
  let files ← deserializeSeed rmp memory maxFiles raw
  .ok {
    files
    decompressedBytes := raw.length
    ownedStringBytes := files.foldl (fun total file =>
      saturatingAdd total file.ownedStringBytes) 0 }

end

/-! ## What is documented of the two crates -/

/-- A reader that hands out `bytes`, in pieces it chooses: whatever buffer it is given, it fills a
part of it, and it leaves it empty only at the end. -/
inductive Delivers {ρ : Type} (read : ρ → Nat → Except IoError (List UInt8 × ρ)) :
    ρ → List UInt8 → Prop
  | done {reader : ρ} (eof : ∀ n, 0 < n → ∃ next, read reader n = .ok ([], next)) :
      Delivers read reader []
  | more {reader : ρ} {bytes : List UInt8} (chunk rest : Nat → List UInt8) (next : Nat → ρ)
      (result : ∀ n, 0 < n → read reader n = .ok (chunk n, next n))
      (progress : ∀ n, 0 < n → chunk n ≠ [] ∧ (chunk n).length ≤ n)
      (split : ∀ n, 0 < n → bytes = chunk n ++ rest n)
      (later : ∀ n, 0 < n → Delivers read (next n) (rest n)) : Delivers read reader bytes

/-- What decompresses as a whole is also handed out by a decoder, if its window is allowed. -/
def Zstd.Lawful {ρ : Type} (zstd : Zstd ρ) : Prop :=
  ∀ data raw log, zstd.decodeAll data = .ok raw → 10 ≤ log → log ≤ 31 → zstd.windowLog data ≤ log →
    ∃ decoder decoder', zstd.decoder data = .ok decoder ∧
      zstd.windowLogMax decoder log = .ok decoder' ∧ Delivers zstd.read decoder' raw

/-- A sequence that has `files` left: its size, if it knows it, is theirs, and its elements are
theirs in order, also those that are only skipped. -/
inductive Rmp.Holds {δ : Type} (rmp : Rmp δ) : δ → List BlobFile → Prop
  | nil {sequence next skipped : δ} (size : rmp.sizeHint sequence ∈ [none, some 0])
      (element : rmp.nextElement sequence = .ok (none, next))
      (ignored : rmp.nextIgnored sequence = .ok (false, skipped))
      (finish : rmp.finish next = .ok ()) (finish' : rmp.finish skipped = .ok ()) :
      Holds rmp sequence []
  | cons {sequence next skipped : δ} {file : BlobFile} {files : List BlobFile}
      (size : rmp.sizeHint sequence ∈ [none, some (files.length + 1)])
      (element : rmp.nextElement sequence = .ok (some file, next))
      (ignored : rmp.nextIgnored sequence = .ok (true, skipped))
      (later : Holds rmp next files) : Holds rmp sequence (file :: files)

/-- What decodes as a whole also decodes element by element, and owns no more text than was read. -/
structure Rmp.Lawful {δ : Type} (rmp : Rmp δ) : Prop where
  elements : ∀ raw files, rmp.fromSlice raw = .ok files →
    ∃ sequence, rmp.deserializeSeq raw = .ok sequence ∧ rmp.Holds sequence files
  text : ∀ raw files, rmp.fromSlice raw = .ok files →
    (files.map fun file => file.path.utf8ByteSize + file.extension.utf8ByteSize).sum ≤ raw.length

/-! ## The read loop -/

/-- The request ends within one byte of the limit, the buffer within the limit. -/
def Effect.Within (limit : Nat) : Effect → Prop
  | request received requested => received + requested ≤ limit + 1
  | reserve size => size ≤ limit

section ReadLoop

variable {ρ : Type} {read : ρ → Nat → Except IoError (List UInt8 × ρ)} {memory : Memory}
variable {limit : Nat} {s : ReadState ρ}

/-- The part of the bytes that has been kept, and the reader that has the rest. -/
structure ReadState.Reads (read : ρ → Nat → Except IoError (List UInt8 × ρ)) (limit : Nat)
    (bytes : List UInt8) (s : ReadState ρ) : Prop where
  rest : ∃ rest, bytes = s.raw ++ rest ∧ Delivers read s.reader rest
  length_le : s.raw.length ≤ limit
  capacity_le : s.capacity ≤ limit
  fits : s.raw.length ≤ s.capacity
  within : ∀ e ∈ s.effects, e.Within limit

variable {E : BlobError → ReadState ρ → Prop}

/-- What a request to a delivering reader brings. -/
lemma wp_request {rest : List UInt8} (h : Delivers read s.reader rest) {n : Nat} (hn : 0 < n)
    {Q : List UInt8 → ReadState ρ → Prop}
    (hend : ∀ reader, rest = [] →
      Q [] { s with reader, effects := s.effects ++ [.request s.raw.length n] })
    (hmore : ∀ chunk rest' reader, rest = chunk ++ rest' → chunk ≠ [] → chunk.length ≤ n →
      Delivers read reader rest' →
      Q chunk { s with reader, effects := s.effects ++ [.request s.raw.length n] }) :
    Scan.wp (request read n) Q E s := by
  cases h with
  | done eof =>
    obtain ⟨next, hnext⟩ := eof n hn
    simp only [Scan.wp, request, hnext]
    exact hend next rfl
  | more chunk rest' next result progress split later =>
    simp only [Scan.wp, request, result n hn]
    exact hmore _ _ _ (split n hn) (progress n hn).1 (progress n hn).2 (later n hn)

lemma wp_reserve (ample : memory.Ample) {size : Nat} {Q : Unit → ReadState ρ → Prop} :
    Scan.wp (reserve memory size) Q E s ↔
      Q () { s with capacity := size, effects := s.effects ++ [.reserve size] } := by
  simp only [Scan.wp, reserve, ample.1 size]

/-- Making room asks for a buffer that holds what is needed and no more than the limit. -/
lemma wp_makeRoom (ample : memory.Ample) {count : Nat} (hlimit : limit ≤ usizeMax)
    (hcount : s.raw.length + count ≤ limit) (hcapacity : s.capacity ≤ limit)
    (hfits : s.raw.length ≤ s.capacity) {Q : Unit → ReadState ρ → Prop}
    (hQ : ∀ capacity effects, s.raw.length + count ≤ capacity → capacity ≤ limit →
      (∀ e ∈ effects, e.Within limit) →
      Q () { s with capacity, effects := s.effects ++ effects }) :
    Scan.wp (makeRoom memory limit count) Q E s := by
  have hneeded : saturatingAdd s.raw.length count = s.raw.length + count := by
    unfold saturatingAdd
    omega
  simp only [makeRoom, Scan.wp_bind, Scan.wp_read, Scan.wp_ite, Scan.wp_pure, hneeded,
    wp_reserve ample]
  -- of the doubled capacity nothing matters: the target is between what is needed and the limit
  generalize (if s.capacity = 0 then chunkBytes else saturatingMul s.capacity 2) = doubled
  have hlow : s.raw.length + count ≤ min (max doubled (s.raw.length + count)) limit :=
    Nat.le_min.mpr ⟨Nat.le_max_right _ _, hcount⟩
  have hhigh := Nat.min_le_right (max doubled (s.raw.length + count)) limit
  generalize min (max doubled (s.raw.length + count)) limit = target at hlow hhigh ⊢
  have hstay := hQ s.capacity []
  simp only [List.append_nil] at hstay
  refine ⟨fun hlt => ⟨fun hroom => ?_, fun hroom => ?_⟩, fun hge => ?_⟩
  · exact hQ _ _ (by omega) (by omega) fun e he => by
      obtain rfl := List.mem_singleton.mp he
      show _ ≤ limit
      omega
  · omega
  · exact hstay (by omega) hcapacity (by simp)

/-- One round keeps what has been read, or ends as the length of the bytes says. -/
lemma wp_readRound (ample : memory.Ample) (hlimit : limit ≤ usizeMax) {bytes : List UInt8}
    (h : s.Reads read limit bytes) :
    Scan.wp (readRound read memory limit)
      (fun r s' => Sum.elim
        (fun _ => s'.Reads read limit bytes ∧ limit - s'.raw.length < limit - s.raw.length)
        (fun raw => raw = bytes ∧ bytes.length ≤ limit ∧ s'.capacity ≤ limit ∧
          ∀ e ∈ s'.effects, e.Within limit) r)
      (fun e s' => e = .decompressedLimitExceeded limit ∧ limit < bytes.length ∧
        s'.capacity ≤ limit ∧ ∀ e ∈ s'.effects, e.Within limit) s := by
  obtain ⟨rest, hbytes, hrest⟩ := h.rest
  have hlength : bytes.length = s.raw.length + rest.length := by rw [hbytes, List.length_append]
  have hle := h.length_le
  -- the request keeps the account, whichever it is
  have haccount : ∀ n, s.raw.length + n ≤ limit + 1 →
      ∀ e ∈ s.effects ++ [.request s.raw.length n], e.Within limit := by
    intro n hn e he
    rcases List.mem_append.mp he with he | he
    · exact h.within e he
    · obtain rfl := List.mem_singleton.mp he
      exact hn
  simp only [readRound, Scan.wp_bind, Scan.wp_read, Scan.wp_ite]
  refine ⟨fun hlt => ?_, fun hfull => ?_⟩
  · have hn : 0 < min (limit - s.raw.length) chunkBytes :=
      Nat.lt_min.mpr ⟨by omega, by decide⟩
    have hmin := Nat.min_le_left (limit - s.raw.length) chunkBytes
    refine wp_request hrest hn (fun reader hnil => ?_)
      fun chunk rest' reader hsplit hne hchunk hlater => ?_
    · refine ⟨fun _ => ?_, fun hne => absurd rfl hne⟩
      refine ⟨?_, ?_, h.capacity_le, haccount _ (by omega)⟩
      · rw [hbytes, hnil, List.append_nil]
      · rw [hlength, hnil]
        exact hle
    · have hpos := List.length_pos_iff.mpr hne
      refine ⟨fun hnil => absurd hnil hne, fun _ => ?_⟩
      have hroom : s.raw.length + chunk.length ≤ limit := by omega
      apply wp_makeRoom ample hlimit
      case hcount => exact hroom
      case hcapacity => exact h.capacity_le
      case hfits => exact h.fits
      intro capacity effects hfits hcapacity heffects
      simp only [Scan.wp_bind, extendFromSlice, Scan.wp_read, Scan.wp_ite, Scan.wp_pure,
        Scan.wp_update, wp_reserve ample]
      refine ⟨fun hlt => absurd hfits (Nat.not_le.mpr hlt), fun _ => ⟨?_, ?_⟩⟩
      · refine ⟨⟨rest', ?_, hlater⟩, ?_, hcapacity, ?_, ?_⟩
        · rw [hbytes, hsplit, List.append_assoc]
        · rw [List.length_append]
          omega
        · rw [List.length_append]
          exact hfits
        · intro e he
          rcases List.mem_append.mp he with he | he
          · exact haccount _ (by omega) e he
          · exact heffects e he
      · rw [List.length_append]
        omega
  · refine wp_request hrest Nat.one_pos (fun reader hnil => ?_)
      fun chunk rest' reader hsplit hne hchunk hlater => ?_
    · refine ⟨fun _ => ?_, fun hne => absurd rfl hne⟩
      refine ⟨?_, ?_, h.capacity_le, haccount _ (by omega)⟩
      · rw [hbytes, hnil, List.append_nil]
      · rw [hlength, hnil]
        exact hle
    · have hpos := List.length_pos_iff.mpr hne
      refine ⟨fun hnil => absurd hnil hne, fun _ => ?_⟩
      refine ⟨rfl, ?_, h.capacity_le, haccount _ (by omega)⟩
      rw [hlength, hsplit, List.length_append]
      omega

/-- **The read loop.**  It returns all bytes or exceeds its limit, as their number says, and what it
asks for stays within. -/
lemma wp_readDecompressedBounded (ample : memory.Ample) (hlimit : limit ≤ usizeMax)
    {reader : ρ} {bytes : List UInt8} (h : Delivers read reader bytes) :
    Scan.wp (readDecompressedBounded read memory limit)
      (fun raw s => raw = bytes ∧ bytes.length ≤ limit ∧ s.capacity ≤ limit ∧
        ∀ e ∈ s.effects, e.Within limit)
      (fun e s => e = .decompressedLimitExceeded limit ∧ limit < bytes.length ∧
        s.capacity ≤ limit ∧ ∀ e ∈ s.effects, e.Within limit) (.start reader) := by
  refine Scan.wp_iterate (fun _ s => s.Reads read limit bytes) (fun s => limit - s.raw.length)
    (fun _ s hs => wp_readRound ample hlimit hs) (limit + 1) () _ ?_ ?_
  · exact ⟨⟨bytes, rfl, h⟩, Nat.zero_le _, Nat.zero_le _, Nat.zero_le _, by simp [ReadState.start]⟩
  · show limit - 0 < limit + 1
    omega

end ReadLoop

/-! ## The visitor -/

section

variable {δ : Type} {rmp : Rmp δ} {memory : Memory} {maxFiles : Nat} {s : VisitState δ}

/-- The part of the files that has been decoded, and the sequence that has the rest. -/
structure VisitState.Visits (rmp : Rmp δ) (maxFiles : Nat) (files : List BlobFile)
    (s : VisitState δ) : Prop where
  rest : ∃ rest, files = s.files ++ rest ∧ rmp.Holds s.sequence rest
  length_le : s.files.length ≤ maxFiles

/-- How a visit of the files ends. -/
def Visited (rmp : Rmp δ) (maxFiles : Nat) (files decoded : List BlobFile) (s : VisitState δ) :
    Prop :=
  decoded = files ∧ files.length ≤ maxFiles ∧ rmp.finish s.sequence = .ok ()

/-- How a visit of too many files ends. -/
def Refused (maxFiles : Nat) (files : List BlobFile) (s : VisitState δ) : Prop :=
  maxFiles < files.length ∧ ∃ count ≤ files.length, s.limitHit = some count

lemma wp_access {α : Type} {call : δ → Except DecodeError (α × δ)} {value : α} {sequence : δ}
    (h : call s.sequence = .ok (value, sequence)) {Q : α → VisitState δ → Prop}
    {E : DecodeError → VisitState δ → Prop} (hQ : Q value { s with sequence }) :
    Scan.wp (access call) Q E s := by
  simp only [Scan.wp, access, h]
  exact hQ

/-- Making room for files changes nothing but the capacity. -/
lemma wp_growFiles (ample : memory.Ample) {Q : Unit → VisitState δ → Prop}
    {E : DecodeError → VisitState δ → Prop} (hQ : ∀ capacity, Q () { s with capacity }) :
    Scan.wp (growFiles memory maxFiles) Q E s := by
  simp only [growFiles, Scan.wp_bind, Scan.wp_read, Scan.wp_ite, Scan.wp_pure, ample.2,
    Scan.wp_update]
  exact ⟨fun _ => hQ _, fun _ => hQ s.capacity⟩

variable {files : List BlobFile}

lemma wp_visitRound (ample : memory.Ample) (h : s.Visits rmp maxFiles files) :
    Scan.wp (visitRound rmp memory maxFiles)
      (fun r s' => Sum.elim
        (fun _ => s'.Visits rmp maxFiles files ∧
          maxFiles - s'.files.length < maxFiles - s.files.length)
        (fun decoded => Visited rmp maxFiles files decoded s') r)
      (fun _ s' => Refused maxFiles files s') s := by
  obtain ⟨rest, hfiles, hholds⟩ := h.rest
  have hle := h.length_le
  have hlength : files.length = s.files.length + rest.length := by
    rw [hfiles, List.length_append]
  simp only [visitRound, Scan.wp_bind, Scan.wp_read, Scan.wp_ite]
  refine ⟨fun hfull => ?_, fun hroom => ?_⟩
  · cases hholds with
    | nil size element ignored finish finish' =>
      apply wp_access
      case h => exact ignored
      rw [List.append_nil] at hfiles
      refine ⟨fun hmore => absurd hmore Bool.false_ne_true, fun _ => ?_⟩
      exact ⟨hfiles.symm, hfiles ▸ hle, finish'⟩
    | cons size element ignored later =>
      apply wp_access
      case h => exact ignored
      rw [List.length_cons] at hlength
      refine ⟨fun _ => ?_, fun hnone => absurd rfl hnone⟩
      simp only [hitLimit, Scan.wp_bind, Scan.wp_update, Scan.wp_fail]
      have hcount : s.files.length + 1 ≤ files.length := by omega
      exact ⟨by omega, _, Nat.le_trans (Nat.min_le_left _ _) hcount, rfl⟩
  · refine wp_growFiles ample fun capacity => ?_
    cases hholds with
    | nil size element ignored finish finish' =>
      apply wp_access
      case h => exact element
      rw [List.append_nil] at hfiles
      exact ⟨hfiles.symm, hfiles ▸ hle, finish⟩
    | cons size element ignored later =>
      apply wp_access
      case h => exact element
      simp only [Scan.wp_bind, Scan.wp_update, Scan.wp_pure, Sum.elim_inl]
      refine ⟨⟨⟨_, by rw [hfiles, List.append_assoc]; rfl, later⟩, ?_⟩, ?_⟩
      · rw [List.length_append, List.length_singleton]
        omega
      · rw [List.length_append, List.length_singleton]
        omega

/-- **The visitor.**  It returns the files of the sequence, or hits its limit, as their number
says. -/
lemma wp_visitSeq (ample : memory.Ample) {sequence : δ} (h : rmp.Holds sequence files) :
    Scan.wp (visitSeq rmp memory maxFiles) (Visited rmp maxFiles files)
      (fun _ s => Refused maxFiles files s) ⟨sequence, [], 0, none⟩ := by
  -- a size hint is the number of files, or there is none
  have hhint : rmp.sizeHint sequence = none ∨ rmp.sizeHint sequence = some files.length := by
    cases h with
    | nil size => simpa using size
    | cons size => simpa using size
  simp only [visitSeq, Scan.wp_bind, Scan.wp_read, Scan.wp_ite]
  refine ⟨fun hlt => ?_, fun _ => ?_⟩
  · rcases hhint with hhint | hhint
    · rw [hhint] at hlt
      exact absurd hlt (Nat.not_lt_zero _)
    · simp only [hhint, Option.getD_some] at hlt ⊢
      exact ⟨hlt, files.length, Nat.le_refl _, rfl⟩
  · refine Scan.wp_iterate (fun _ s => s.Visits rmp maxFiles files)
      (fun s => maxFiles - s.files.length) (fun _ s hs => wp_visitRound ample hs) (maxFiles + 1) ()
      _ ?_ ?_
    · exact ⟨⟨files, rfl, h⟩, Nat.zero_le _⟩
    · show maxFiles - 0 < maxFiles + 1
      omega

/-- The bounded deserializer against the plain one. -/
lemma deserializeSeed_of_fromSlice (maxFiles : Nat) (lawful : rmp.Lawful) (ample : memory.Ample)
    {raw : List UInt8} (h : rmp.fromSlice raw = .ok files) :
    (files.length ≤ maxFiles → deserializeSeed rmp memory maxFiles raw = .ok files) ∧
      (maxFiles < files.length → ∃ count ≤ files.length,
        deserializeSeed rmp memory maxFiles raw =
          .error (.fileCountLimitExceeded count maxFiles)) := by
  obtain ⟨sequence, hsequence, hholds⟩ := lawful.elements raw files h
  have hvisit : Scan.wp (visitSeq rmp memory maxFiles) (Visited rmp maxFiles files)
      (fun _ s => Refused maxFiles files s) ⟨sequence, [], 0, none⟩ := wp_visitSeq ample hholds
  rw [deserializeSeed, hsequence]
  simp only [decodeResult, Outcome.ok_bind]
  rcases Scan.cases_of_wp hvisit with
    ⟨_, s, heq, rfl, hle, hfinish⟩ | ⟨error, s, heq, hlt, count, hcount, hhit⟩
  · rw [heq]
    simp only [hfinish, Outcome.ok_bind]
    exact ⟨fun _ => trivial, fun hlt => absurd hle (Nat.not_le.mpr hlt)⟩
  · rw [heq]
    simp only [hhit]
    exact ⟨fun hle => absurd hle (Nat.not_le.mpr hlt), fun _ => ⟨count, hcount, rfl⟩⟩

end

/-! ## Byte counts -/

/-- A sum that fits does not saturate on the way. -/
lemma foldl_saturatingAdd {files : List BlobFile} {total : Nat}
    (h : total + (files.map fun f => f.path.utf8ByteSize + f.extension.utf8ByteSize).sum ≤
      usizeMax) :
    files.foldl (fun total file => saturatingAdd total file.ownedStringBytes) total =
      total + (files.map fun f => f.path.utf8ByteSize + f.extension.utf8ByteSize).sum := by
  induction files generalizing total with
  | nil => rfl
  | cons file files ih =>
    rw [List.map_cons, List.sum_cons] at h ⊢
    have hfile : saturatingAdd total file.ownedStringBytes =
        total + (file.path.utf8ByteSize + file.extension.utf8ByteSize) := by
      unfold BlobFile.ownedStringBytes saturatingAdd
      omega
    rw [List.foldl_cons, hfile, ih (by omega)]
    omega

/-! ## Bounded decoding -/

section

variable {ρ δ : Type} {zstd : Zstd ρ} {rmp : Rmp δ} {memory : Memory}

/-- What the read loop returns to `deserialize_files_bounded`. -/
lemma fst_readDecompressedBounded {read : ρ → Nat → Except IoError (List UInt8 × ρ)}
    (ample : memory.Ample) {limit : Nat} (hlimit : limit ≤ usizeMax) {reader : ρ}
    {bytes : List UInt8} (h : Delivers read reader bytes) :
    (readDecompressedBounded read memory limit (.start reader)).1 =
      if bytes.length ≤ limit then .ok bytes else .error (.decompressedLimitExceeded limit) := by
  rcases Scan.cases_of_wp (wp_readDecompressedBounded ample hlimit h) with
    ⟨raw, s, heq, hread⟩ | ⟨error, s, heq, hread⟩
  · rw [heq, if_pos hread.2.1, hread.1]
  · rw [heq, if_neg (Nat.not_le.mpr hread.2.1), hread.1]

lemma windowLogForLimit_range (limit : Nat) :
    10 ≤ windowLogForLimit limit ∧ windowLogForLimit limit ≤ 31 := by
  unfold windowLogForLimit
  have hlow := Nat.le_max_left 23 (min 31 (max limit 1 - 1).size)
  refine ⟨by omega, Nat.max_le.mpr ⟨by decide, Nat.min_le_left _ _⟩⟩

/-- The bounded decoder in terms of the decompressed bytes. -/
lemma deserializeFilesBounded_eq (lawful : zstd.Lawful) (ample : memory.Ample)
    {data raw : List UInt8} (h : zstd.decodeAll data = .ok raw) {maxBytes maxFiles : Nat}
    (hmax : maxBytes ≤ usizeMax) (hwindow : zstd.windowLog data ≤ windowLogForLimit maxBytes) :
    deserializeFilesBounded zstd rmp memory data maxBytes maxFiles =
      if raw.length ≤ maxBytes then do
        let files ← deserializeSeed rmp memory maxFiles raw
        .ok ⟨files, raw.length, files.foldl (fun total file =>
          saturatingAdd total file.ownedStringBytes) 0⟩
      else .error (.decompressedLimitExceeded maxBytes) := by
  have hrange := windowLogForLimit_range maxBytes
  obtain ⟨decoder, decoder', hnew, hset, hdelivers⟩ :=
    lawful data raw _ h hrange.1 hrange.2 hwindow
  rw [deserializeFilesBounded, hnew]
  simp only [zstdResult, Outcome.ok_bind, hset]
  rw [fst_readDecompressedBounded ample hmax hdelivers]
  split
  · rfl
  · rfl

/-- **Bounded decoding.**  A blob that decodes to `files` from `raw` is decoded to the same within
the limits, and else fails by the first limit it exceeds.  The read loop, on any reader, returns all
bytes exactly within its limit, asks for no byte behind the first `limit + 1` and for no buffer of
more than `limit` bytes. -/
theorem deserializeFilesBounded_refines (zstd_lawful : zstd.Lawful) (rmp_lawful : rmp.Lawful)
    (ample : memory.Ample) :
    (∀ data raw files maxBytes maxFiles, deserializeFiles zstd rmp data = .ok files →
      zstd.decodeAll data = .ok raw → maxBytes ≤ usizeMax →
      zstd.windowLog data ≤ windowLogForLimit maxBytes →
        (raw.length ≤ maxBytes → files.length ≤ maxFiles →
          deserializeFilesBounded zstd rmp memory data maxBytes maxFiles = .ok ⟨files, raw.length,
            (files.map fun f => f.path.utf8ByteSize + f.extension.utf8ByteSize).sum⟩) ∧
        (maxBytes < raw.length →
          deserializeFilesBounded zstd rmp memory data maxBytes maxFiles =
            .error (.decompressedLimitExceeded maxBytes)) ∧
        (raw.length ≤ maxBytes → maxFiles < files.length → ∃ count ≤ files.length,
          deserializeFilesBounded zstd rmp memory data maxBytes maxFiles =
            .error (.fileCountLimitExceeded count maxFiles))) ∧
    ∀ (ρ : Type) (read : ρ → Nat → Except IoError (List UInt8 × ρ)) (reader : ρ)
      (bytes : List UInt8) (limit : Nat), Delivers read reader bytes → limit ≤ usizeMax →
        ∃ s, readDecompressedBounded read memory limit (.start reader) =
            (if bytes.length ≤ limit then .ok bytes
              else .error (.decompressedLimitExceeded limit), s) ∧
          s.capacity ≤ limit ∧ ∀ e ∈ s.effects, e.Within limit := by
  refine ⟨?_, ?_⟩
  · intro data raw files maxBytes maxFiles hfiles hraw hmax hwindow
    have hslice : rmp.fromSlice raw = .ok files := by
      simp only [deserializeFiles, hraw, zstdResult, Outcome.ok_bind] at hfiles
      cases hresult : rmp.fromSlice raw with
      | error e =>
        rw [hresult] at hfiles
        cases hfiles
      | ok decoded =>
        rw [hresult] at hfiles
        cases hfiles
        rfl
    have htext := rmp_lawful.text raw files hslice
    obtain ⟨hwithin, hbeyond⟩ :=
      deserializeSeed_of_fromSlice maxFiles rmp_lawful ample hslice
    rw [deserializeFilesBounded_eq zstd_lawful ample hraw hmax hwindow]
    refine ⟨fun hle hcount => ?_, fun hlt => ?_, fun hle hcount => ?_⟩
    · rw [if_pos hle, hwithin hcount, Outcome.ok_bind, foldl_saturatingAdd (by omega), Nat.zero_add]
    · rw [if_neg (Nat.not_le.mpr hlt)]
    · obtain ⟨count, hle', herror⟩ := hbeyond hcount
      rw [if_pos hle, herror]
      exact ⟨count, hle', rfl⟩
  · intro ρ read reader bytes limit hdelivers hlimit
    rcases Scan.cases_of_wp (wp_readDecompressedBounded ample hlimit hdelivers) with
      ⟨_, s, heq, rfl, hle, hcapacity, hwithin⟩ | ⟨_, s, heq, rfl, hlt, hcapacity, hwithin⟩
    · exact ⟨s, by rw [heq, if_pos hle], hcapacity, hwithin⟩
    · exact ⟨s, by rw [heq, if_neg (Nat.not_le.mpr hlt)], hcapacity, hwithin⟩

end

/-! ## A reader of pieces -/

/-- A reader over a list of bytes that hands out at most `k` at once. -/
def pieces (k : Nat) (bytes : List UInt8) (n : Nat) : Except IoError (List UInt8 × List UInt8) :=
  .ok (bytes.take (min n k), bytes.drop (min n k))

lemma delivers_pieces {k : Nat} (hk : 0 < k) (bytes : List UInt8) :
    Delivers (pieces k) bytes bytes := by
  induction hlength : bytes.length using Nat.strongRecOn generalizing bytes with
  | ind length ih =>
    by_cases hnil : bytes = []
    · rw [hnil]
      exact .done fun n _ => ⟨[].drop (min n k), by simp [pieces]⟩
    · have hpos := List.length_pos_iff.mpr hnil
      refine .more (fun n => bytes.take (min n k)) (fun n => bytes.drop (min n k))
        (fun n => bytes.drop (min n k)) (fun n _ => rfl) (fun n hn => ?_)
        (fun n _ => (List.take_append_drop _ _).symm) fun n hn => ?_
      · have hmin : 0 < min n k := Nat.lt_min.mpr ⟨hn, hk⟩
        refine ⟨?_, ?_⟩
        · rw [← List.length_pos_iff, List.length_take]
          exact Nat.lt_min.mpr ⟨hmin, hpos⟩
        · exact Nat.le_trans (List.length_take_le _ _) (Nat.min_le_left _ _)
      · have hmin : 0 < min n k := Nat.lt_min.mpr ⟨hn, hk⟩
        refine ih _ ?_ _ rfl
        rw [List.length_drop]
        omega

/-- The bytes asked for in all calls together. -/
def requestedBytes (effects : List Effect) : Nat :=
  (effects.map fun
    | .request _ requested => requested
    | .reserve _ => 0).sum

/-- All allocations succeed. -/
def ampleMemory : Memory := ⟨fun _ => none, fun _ => none⟩

/-- From a reader of single bytes, two bytes are asked for, then the one that was missing, and then
the probe. -/
theorem requestedBytes_exceeds_limit :
    Delivers (pieces 1) [1, 2] [1, 2] ∧
      2 + 1 < requestedBytes
        (readDecompressedBounded (pieces 1) ampleMemory 2 (.start [1, 2])).2.effects :=
  ⟨delivers_pieces (by decide) _, by decide⟩

/-! ## One blob -/

/-- The file of the blob. -/
def oneFile : BlobFile := ⟨0, "a", "", 1⟩

/-- The file in MessagePack: an array of one map, with the keys `i`, `p`, `e` and `s`. -/
def oneFileRaw : List UInt8 :=
  [0x91, 0x84, 0xa1, 0x69, 0, 0xa1, 0x70, 0xa1, 0x61, 0xa1, 0x65, 0xa0, 0xa1, 0x73, 1]

/-- The frame: its magic number, a header for a single segment, and one raw block. -/
def oneFileBlob : List UInt8 := [0x28, 0xb5, 0x2f, 0xfd, 0x20, 15, 0x79, 0, 0] ++ oneFileRaw

/-- The `zstd` crate on this blob. -/
def oneFileZstd : Zstd (List UInt8) where
  decodeAll data :=
    if data = oneFileBlob then .ok oneFileRaw else .error ⟨"Unknown frame descriptor"⟩
  windowLog _ := 10
  decoder data :=
    if data = oneFileBlob then .ok oneFileRaw else .error ⟨"Unknown frame descriptor"⟩
  windowLogMax decoder _ := .ok decoder
  read := pieces (128 * 1024)

/-- The `rmp_serde` crate on these bytes; a sequence is the list of its elements. -/
def oneFileRmp : Rmp (List BlobFile) where
  fromSlice raw := if raw = oneFileRaw then .ok [oneFile] else .error ⟨"wrong msgpack marker"⟩
  deserializeSeq raw := if raw = oneFileRaw then .ok [oneFile] else .error ⟨"wrong msgpack marker"⟩
  sizeHint files := some files.length
  nextElement files := .ok (files.head?, files.tail)
  nextIgnored files := .ok (!files.isEmpty, files.tail)
  finish files := if files = [] then .ok () else .error ⟨"array had incorrect length"⟩

lemma oneFileZstd_lawful : oneFileZstd.Lawful := by
  intro data raw log h _ _ _
  have hdata : data = oneFileBlob ∧ raw = oneFileRaw := by
    simp only [oneFileZstd] at h
    split at h
    · next hdata =>
        cases h
        exact ⟨hdata, rfl⟩
    · cases h
  obtain ⟨rfl, rfl⟩ := hdata
  exact ⟨oneFileRaw, oneFileRaw, by simp [oneFileZstd], rfl, delivers_pieces (by decide) _⟩

lemma oneFileRmp_holds (files : List BlobFile) : oneFileRmp.Holds files files := by
  induction files with
  | nil => exact .nil (by simp [oneFileRmp]) rfl rfl rfl rfl
  | cons file files ih => exact .cons (by simp [oneFileRmp]) rfl rfl ih

lemma oneFileRmp_lawful : oneFileRmp.Lawful := by
  have hraw : ∀ raw files, oneFileRmp.fromSlice raw = .ok files →
      raw = oneFileRaw ∧ files = [oneFile] := by
    intro raw files h
    simp only [oneFileRmp] at h
    split at h
    · next hraw =>
        cases h
        exact ⟨hraw, rfl⟩
    · cases h
  constructor
  · intro raw files h
    obtain ⟨rfl, rfl⟩ := hraw raw files h
    exact ⟨[oneFile], by simp [oneFileRmp], oneFileRmp_holds _⟩
  · intro raw files h
    obtain ⟨rfl, rfl⟩ := hraw raw files h
    decide

/-- Fifteen bytes and one file are within, and each limit is exceeded by one less. -/
theorem deserializeFilesBounded_refines_oneFile :
    deserializeFilesBounded oneFileZstd oneFileRmp ampleMemory oneFileBlob 15 1 =
        .ok ⟨[oneFile], 15, 1⟩ ∧
      deserializeFilesBounded oneFileZstd oneFileRmp ampleMemory oneFileBlob 14 1 =
        .error (.decompressedLimitExceeded 14) ∧
      ∃ count ≤ 1, deserializeFilesBounded oneFileZstd oneFileRmp ampleMemory oneFileBlob 15 0 =
        .error (.fileCountLimitExceeded count 0) := by
  have ample : ampleMemory.Ample := ⟨fun _ => rfl, fun _ => rfl⟩
  have h := (deserializeFilesBounded_refines oneFileZstd_lawful oneFileRmp_lawful ample).1
  have hfiles : deserializeFiles oneFileZstd oneFileRmp oneFileBlob = .ok [oneFile] := by decide
  have hraw : oneFileZstd.decodeAll oneFileBlob = .ok oneFileRaw := by simp [oneFileZstd]
  refine ⟨?_, ?_, ?_⟩
  · exact (h _ _ _ 15 1 hfiles hraw (by decide) (by decide)).1 (by decide) (by decide)
  · exact (h _ _ _ 14 1 hfiles hraw (by decide) (by decide)).2.1 (by decide)
  · exact (h _ _ _ 15 0 hfiles hraw (by decide) (by decide)).2.2 (by decide) (by decide)

end Bitmagnet.Blob
