import Bitmagnet.Dht.InboundAccount

/-!
# Safety of the inbound decoder

For every byte string the decoder ends without a fault, within the bounds that the
accounts of the scanner give.  `IsValue` is the specification all values share, with
what holds of the decoded value as its parameter; the functions that call themselves
have it by induction on their levels, and `IsValue.map`, `.decoded` and `.keyed`
compose the typed values and the dictionaries from them.
-/

namespace Bitmagnet.Dht

open Scan (wp)

/-! ## Decoded messages -/

/-- Arguments as they are decoded: an all-zero identifier is absent. -/
structure MessageArgs.Normal (args : MessageArgs) : Prop where
  infoHash : args.infoHash ≠ some .zero
  target : args.target ≠ some .zero

/-- A response as it is decoded: an empty node list is absent, and a present one is of
the family of its key. -/
structure MessageReturn.Normal (response : MessageReturn) : Prop where
  nodes : ∀ nodes, response.nodes = some nodes → nodes ≠ [] ∧ OfFamily false nodes
  nodes6 : ∀ nodes, response.nodes6 = some nodes → nodes ≠ [] ∧ OfFamily true nodes

/-- A message as it is decoded. -/
structure KrpcMessage.Normal (message : KrpcMessage) : Prop where
  args : ∀ args, message.args = some args → args.Normal
  response : ∀ response, message.response = some response → response.Normal

namespace Inbound

open Cursor

/-! ## Scalars and skipped values -/

section

variable {s : Cursor}

/-- `m` reads one value of `input` where `depth - 1` containers are open. -/
def IsValue {α : Type} (input : List UInt8) (depth : Nat) (m : Inbound α) (Q : α → Prop) : Prop :=
  ∀ s : Cursor, s.Fits → s.input = input → s.trace.nesting < depth → Runs m 0 1 8 8 Q s

variable {input : List UInt8} {depth : Nat}

lemma depth_succ_lt (h : depth ≤ maxInboundNestingDepth) : depth + 1 < usizeLimit := by
  have hlimit : maxInboundNestingDepth + 1 < usizeLimit := by decide
  omega

variable {β α : Type} {expected : InboundShapeKind} {field : String} {Q : α → Prop}

/-- **Containers.**  From the opening token to behind the closing one; the invariant `I` may
speak of the offset, and grows with it. -/
lemma wp_container {token : UInt8} {body : β → Inbound β} {I : β → Nat → Prop} {b : β}
    {Q : β → Cursor → Prop} {s₀ : Cursor} {n g C : Int} {k : Nat} (hm : Moved n k g s₀ s)
    (hle : s.trace.nesting < depth ∧ 3 ≤ C + g) (hmono : ∀ b o o', o ≤ o' → I b o → I b o')
    (hI : ∀ o, I b o)
    (hbody : depth ≤ maxInboundNestingDepth → ∀ b t, t.Fits → t.input = s₀.input →
      t.trace.nesting < depth + 1 → I b t.offset →
      wp (body b) (fun b' t' => I b' t'.offset ∧ Moved 0 1 1 t t') (Stopped 8 t) t)
    (hQ : ∀ b' s', I b' s'.offset → Moved n (k + 1) (g + 13) s₀ s' → Q b' s') :
    wp (startContainer field expected token depth)
      (fun _ s₁ => wp (whileOpen body b) Q (Stopped C s₀) s₁) (Stopped C s₀) s := by
  refine Scan.wp_mono (startContainer_runs hm.fits hle.1) ?_ ?_
  · rintro ⟨⟩ s₁ ⟨hle, hopen⟩
    have hnesting := hopen.nesting
    refine Scan.wp_mono (whileOpen_runs hmono hopen.fits (by omega) ?_ b (hI _)) ?_ ?_
    · intro b t ht hinput hnest hIb
      exact hbody hle b t ht (hinput.trans (hopen.input.trans hm.input)) (by omega) hIb
    · rintro b' s₂ ⟨hI', hclose⟩
      have hall := (hm.trans hopen).trans hclose
      exact hQ b' s₂ hI' (hall.weaken (by omega))
    · intro e s₂ hstop
      exact (hm.trans hopen).stopped hstop (by omega)
  · intro e s₁ hstop
    exact hm.stopped hstop (by omega)

/-- The levels on which a value can start. -/
abbrev InDepth (depth : Nat) : Prop := 1 ≤ depth ∧ depth ≤ maxInboundNestingDepth + 1

/-- **Recursion.**  A function that calls itself for the values of a container has enough
levels for those below the nesting limit. -/
lemma isValue_of_levels {f : Nat → Nat → Inbound α} (hdepth : InDepth depth)
    (hstep : ∀ levels depth,
      (depth ≤ maxInboundNestingDepth → IsValue input (depth + 1) (f levels (depth + 1)) Q) →
      IsValue input depth (f (levels + 1) depth) Q) :
    IsValue input depth (f maxRecursion depth) Q := by
  have hall : ∀ levels depth, depth ≤ maxInboundNestingDepth + 1 →
      maxInboundNestingDepth + 2 ≤ depth + levels → IsValue input depth (f levels depth) Q := by
    intro levels
    induction levels with
    | zero =>
      intro depth hdepth hlevels
      omega
    | succ levels ih =>
      intro depth _ hlevels
      exact hstep levels depth fun hle => ih (depth + 1) (by omega) (by omega)
  exact hall maxRecursion depth hdepth.2 (by simp only [maxRecursion]; omega)

/-- **Scalars.**  Lists are unwrapped to the level below the nesting limit. -/
lemma parseScalar_isValue {scalar : Inbound (Nat × α)} (hdepth : InDepth depth)
    (hscalar : ∀ s : Cursor, s.Fits → s.input = input →
      Runs scalar 0 1 10 4 (fun p => p.1 ≤ input.length) s) :
    IsValue input depth (parseScalar scalar expected field maxRecursion depth)
      fun p => p.1 ≤ input.length := by
  refine isValue_of_levels hdepth ?_
  intro levels depth ih s h hinput hnesting
  unfold Runs parseScalar
  refine advances h.moved (peek_runs h) (by omega) fun token s₁ _ hm₁ => ?_
  have hinput₁ : s₁.input = input := hm₁.input.trans hinput
  have hnesting₁ := hm₁.nesting
  rw [Scan.wp_ite]
  refine ⟨fun _ => ?_, fun _ => ?_⟩
  · exact (hscalar s₁ hm₁.fits hinput₁).since hm₁ (fun _ hp => hp) (by omega)
  · simp only [startList, Scan.wp_bind, wp_position]
    -- the first of `count` entries is kept
    refine wp_container (I := fun p o => p.2 ≤ o ∧ (p.2 = 0 ∨ p.1.isSome) ∧
      ∀ q ∈ p.1, q.1 ≤ input.length) hm₁ (by omega) ?_ ?_ ?_ ?_
    · rintro ⟨value, count⟩ o o' hle ⟨hcount, hrest⟩
      exact ⟨hcount.trans hle, hrest⟩
    · simp
    · rintro hle ⟨value, count⟩ t ht htinput htnesting ⟨hcount, hvalue, hlocated⟩
      simp only [Scan.wp_bind, wp_add, Scan.wp_pure]
      refine ⟨depth_succ_lt hle, Scan.wp_mono (ih hle t ht
        (htinput.trans hinput) htnesting) ?_ fun _ _ hstop => hstop⟩
      rintro parsed t' ⟨hparsed, hm⟩
      have hoffset := hm.offset
      refine ⟨ht.count_lt hcount, ⟨by omega, ?_, ?_⟩, hm.weaken (by omega)⟩
      · by_cases hzero : count = 0 <;> simp_all
      · by_cases hzero : count = 0 <;> simp_all
    · rintro ⟨value, count⟩ s₂ ⟨_, hvalue, hlocated⟩ hm₂
      simp only [Scan.wp_ite, Scan.wp_lift, Scan.wp_fail]
      refine ⟨fun hone => ?_, fun _ => hm₂.stop id ?_ (by omega)⟩
      · obtain ⟨q, rfl⟩ := Option.isSome_iff_exists.mp (hvalue.resolve_left (by omega))
        exact ⟨hlocated q rfl, hm₂.weaken (by omega)⟩
      · exact hm₁.input ▸ hm₁.fits.offset

lemma parseScalarBytes_isValue (hdepth : InDepth depth) :
    IsValue input depth (parseScalarBytes field depth) fun p => p.1 ≤ input.length :=
  parseScalar_isValue hdepth (fun _ h hinput => hinput ▸ parseBytes_runs h)

lemma parseScalarInteger_isValue (hdepth : InDepth depth) :
    IsValue input depth (parseScalarInteger field depth) fun p => p.1 ≤ input.length :=
  parseScalar_isValue hdepth (fun _ h hinput => hinput ▸ parseInteger_runs h)

lemma parseBool_isValue (hdepth : InDepth depth) :
    IsValue input depth (parseBool field depth) fun _ => True := by
  refine isValue_of_levels (f := parseBoolLevels field) hdepth ?_
  intro levels depth ih s h hinput hnesting
  unfold Runs parseBoolLevels
  refine advances h.moved (peek_runs h) (by omega) fun token s₁ _ hm₁ => ?_
  have hnesting₁ := hm₁.nesting
  have hoffset₁ : s₁.offset ≤ s.input.length := hm₁.input ▸ hm₁.fits.offset
  simp only [Scan.wp_ite]
  refine ⟨fun _ => ?_, fun _ => ⟨fun _ => ?_, fun _ => ⟨fun _ => ?_, fun _ => ?_⟩⟩⟩
  · refine advances hm₁ (parseIntegerRaw_runs hm₁.fits) (by omega) fun p s₂ _ hm₂ => ?_
    exact ⟨trivial, hm₂.weaken (by omega)⟩
  · refine advances hm₁ (parseBytes_runs hm₁.fits) (by omega) fun p s₂ _ hm₂ => ?_
    exact ⟨trivial, hm₂.weaken (by omega)⟩
  · simp only [startList, Scan.wp_bind]
    refine wp_container (I := fun p o => p.1 ≤ o) hm₁ (by omega)
      (fun _ _ _ hle hcount => Nat.le_trans hcount hle) (by simp) ?_ ?_
    · rintro hle ⟨count, first⟩ t ht htinput htnesting hcount
      simp only [Scan.wp_bind, wp_add, Scan.wp_pure]
      refine ⟨depth_succ_lt hle, Scan.wp_mono (ih hle t ht
        (htinput.trans hinput) htnesting) ?_ fun _ _ hstop => hstop⟩
      rintro value t' ⟨-, hm⟩
      have hoffset := hm.offset
      have hcount : count ≤ t.offset := hcount
      have hcount' : count + 1 ≤ t'.offset := by omega
      exact ⟨ht.count_lt hcount, hcount', hm.weaken (by omega)⟩
    · rintro ⟨count, first⟩ s₂ - hm₂
      simp only [Scan.wp_ite, Scan.wp_pure, Scan.wp_bind, wp_position, wp_sub, Scan.wp_fail]
      have hoffset₂ := hm₂.offset
      have hbound : s₂.offset ≤ s.input.length := hm₂.input ▸ hm₂.fits.offset
      refine ⟨fun _ => ⟨trivial, hm₂.weaken (by omega)⟩, fun _ => ⟨by omega, ?_⟩⟩
      refine hm₂.stop id ?_ (by omega)
      simp only [InboundError.offset]
      omega
  · simp only [Scan.wp_bind, wp_position, Scan.wp_fail]
    exact hm₁.stop id hoffset₁ (by omega)

/-! ## Composing values -/

lemma parseBytes_isValue : IsValue input depth (parseBytes field) fun p => p.1 ≤ input.length := by
  intro s h hinput _
  exact (parseBytes_runs h).since h.moved (fun _ hp => hinput ▸ hp) (by omega)

lemma IsValue.map {m : Inbound α} {f : α → β} {Q' : β → Prop} (hm : IsValue input depth m Q)
    (hf : ∀ a, Q a → Q' (f a)) : IsValue input depth (m >>= fun a => pure (f a)) Q' := by
  intro s h hinput hnesting
  refine advances h.moved (hm s h hinput hnesting) (by omega) fun a s' hQ hmoved => ?_
  exact ⟨hf a hQ, hmoved.weaken (by omega)⟩

/-- A value inside a container, whose depth is computed first. -/
lemma IsValue.deeper {f : Nat → Inbound α} (hf : IsValue input (depth + 1) (f (depth + 1)) Q)
    (hdepth : depth ≤ maxInboundNestingDepth) :
    IsValue input (depth + 1) (add usizeLimit depth 1 >>= f) Q := by
  intro s h hinput hnesting
  unfold Runs
  rw [Scan.wp_bind, wp_add]
  exact ⟨depth_succ_lt hdepth, hf s h hinput hnesting⟩

/-- A byte string and its decoding, which reports where the string starts. -/
lemma IsValue.decoded {ε : Type} {m : Inbound (Nat × List UInt8)}
    {decode : List UInt8 → Outcome ε α} {wrap : Nat → ε → InboundError}
    (hm : IsValue input depth m fun p => p.1 ≤ input.length)
    (hdecode : ∀ value, (decode value).Ensures Q fun _ => True)
    (hwrap : ∀ o e, ¬ (wrap o e).IsValueCount ∧ (wrap o e).offset = o) :
    IsValue input depth (m >>= fun p => Scan.lift ((decode p.2).mapError (wrap p.1))) Q := by
  intro s h hinput hnesting
  refine advances h.moved (hm s h hinput hnesting) (by omega) fun p s' hoffset hmoved => ?_
  rw [Scan.wp_lift, Outcome.ensures_mapError]
  refine (hdecode p.2).mono (fun a hQ => ⟨hQ, hmoved.weaken (by omega)⟩) ?_
  intro e _
  refine hmoved.stop (hwrap p.1 e).1 ?_ (by omega)
  rw [(hwrap p.1 e).2, hinput]
  exact hoffset

/-- A key and its value. -/
lemma IsValue.keyed {κ : Type} {key : Inbound κ} {value : κ → Inbound α} {P : κ → Prop}
    (hkey : IsValue input depth key P) (hvalue : ∀ k, P k → IsValue input depth (value k) Q) :
    IsValue input depth (key >>= fun k => requireDictionaryValue >>= fun _ => value k) Q := by
  intro s h hinput hnesting
  refine advances h.moved (hkey s h hinput hnesting) (by omega) fun k s₁ hk hm₁ => ?_
  refine advances hm₁ (requireDictionaryValue_runs hm₁.fits) (by omega) fun _ s₂ _ hm₂ => ?_
  refine (hvalue k hk s₂ hm₂.fits (hm₂.input.trans hinput) ?_).since hm₂ (fun _ hQ => hQ) (by omega)
  have := hm₂.nesting
  omega

/-- A container whose entries are values that keep `I`. -/
lemma container_runs {token : UInt8} {body : β → Inbound β} {I : β → Prop} {b : β} {s₀ : Cursor}
    {g : Int} {k : Nat} (hm : Moved 0 k g s₀ s)
    (hle : s.trace.nesting < depth ∧ -5 ≤ g) (hI : I b)
    (hbody : depth ≤ maxInboundNestingDepth → ∀ b, I b → IsValue s₀.input (depth + 1) (body b) I) :
    wp (startContainer field expected token depth >>= fun _ => whileOpen body b)
      (fun b' s' => I b' ∧ Moved 0 1 8 s₀ s') (Stopped 8 s₀) s := by
  rw [Scan.wp_bind]
  refine wp_container (I := fun b _ => I b) hm (by omega) (fun _ _ _ _ h => h) (fun _ => hI) ?_
    fun b' s' hI' hm' => ⟨hI', hm'.weaken (by omega)⟩
  intro hle b t ht htinput htnesting hIb
  exact (hbody hle b hIb t ht htinput htnesting).since ht.moved (fun _ h => h) (by omega)

/-! ## Skipped values -/

lemma skipGeneric_isValue (hdepth : InDepth depth) :
    IsValue input depth (skipGeneric depth) fun _ => True := by
  refine isValue_of_levels (f := skipGenericLevels) hdepth ?_
  intro levels depth ih s h hinput hnesting
  unfold Runs skipGenericLevels
  refine advances h.moved (peek_runs h) (by omega) fun token s₁ _ hm₁ => ?_
  have hnesting₁ := hm₁.nesting
  have hoffset₁ : s₁.offset ≤ s.input.length := hm₁.input ▸ hm₁.fits.offset
  simp only [Scan.wp_ite]
  refine ⟨fun _ => ?_, fun _ => ⟨fun _ => ?_, fun _ => ⟨fun _ => ?_, fun _ =>
    ⟨fun _ => ?_, fun _ => ?_⟩⟩⟩⟩
  · refine advances hm₁ (parseBytes_runs hm₁.fits) (by omega) fun p s₂ _ hm₂ => ?_
    exact ⟨trivial, hm₂.weaken (by omega)⟩
  · refine advances hm₁ (parseIntegerRaw_runs hm₁.fits) (by omega) ?_
    rintro ⟨offset, raw⟩ s₂ hoffset hm₂
    rw [Scan.wp_bind]
    refine wp_validGenericInteger fun valid => ?_
    rw [Scan.wp_ensure]
    exact ⟨fun _ => ⟨trivial, hm₂.weaken (by omega)⟩, fun _ => hm₂.stop id (hm₁.input ▸ hoffset) (by omega)⟩
  · refine container_runs hm₁ (by omega) trivial fun hle _ _ => ?_
    exact (hinput ▸ ih hle).deeper hle
  · simp only [startDictionary, Scan.wp_bind]
    refine wp_container (I := fun _ _ => True) hm₁ (by omega) (fun _ _ _ _ h => h) (fun _ => trivial) ?_
      fun _ s₂ _ hm₂ => ⟨trivial, hm₂.weaken (by omega)⟩
    intro hle previous t ht htinput htnesting _
    refine advances ht.moved (parseBytes_runs ht) (by omega) ?_
    rintro ⟨offset, key⟩ t₁ hoffset ht₁
    rw [Scan.wp_bind, Scan.wp_ensure]
    refine ⟨fun _ => ?_, fun _ => ht₁.stop id hoffset (by omega)⟩
    refine advances ht₁ (requireDictionaryValue_runs ht₁.fits) (by omega) fun _ t₂ _ ht₂ => ?_
    have hnesting₂ := ht₂.nesting
    rw [Scan.wp_bind, wp_add]
    refine ⟨depth_succ_lt hle, ?_⟩
    refine advances ht₂ (ih hle t₂ ht₂.fits
      (ht₂.input.trans (htinput.trans hinput)) (by omega)) (by omega) fun _ t₃ _ ht₃ => ?_
    exact ⟨trivial, ht₃.weaken (by omega)⟩
  · simp only [Scan.wp_bind, wp_position, Scan.wp_fail]
    exact hm₁.stop id hoffset₁ (by omega)

/-- An integer of which only the `e` matters. -/
lemma skipRawInteger_runs (h : s.Fits) :
    Runs (do
      let _ ← beginValue
      advance
      skipToEnd
      advance) 0 1 13 4 (fun _ => True) s := by
  unfold Runs
  rw [Scan.wp_bind]
  refine wp_beginValue_of_fits h (by omega) fun hlt hbegan => ?_
  have hsize := h.size_lt
  simp only [Scan.wp_bind, wp_advance]
  refine ⟨by simp; omega, ?_⟩
  refine Scan.wp_mono (skipToEnd_began (hbegan.advance hlt) (by omega)) ?_ fun _ _ hstop => hstop
  rintro ⟨⟩ t ⟨hend, k, hk, ht⟩
  have hlt' := (List.getElem?_eq_some_iff.mp hend).1
  have hsize' := ht.size_lt
  exact ⟨by omega, trivial, ((ht.advance hlt').finish (by omega)).weaken (by omega)⟩

lemma skipRaw_isValue (hdepth : InDepth depth) :
    IsValue input depth (skipRaw depth) fun _ => True := by
  refine isValue_of_levels (f := skipRawLevels) hdepth ?_
  intro levels depth ih s h hinput hnesting
  unfold Runs skipRawLevels
  rw [Scan.wp_bind, wp_peek]
  refine ⟨fun token htoken => ?_, fun _ => h.moved.stopped (h.stop id h.offset) (by omega)⟩
  have hm₁ : Moved 0 0 (-1) s (s.tick 1) := ⟨h.tick 1, rfl, by simp, by simp, by simp; omega⟩
  have hnesting₁ := hm₁.nesting
  simp only [Scan.wp_ite]
  refine ⟨fun hdigit => ?_, fun _ => ⟨fun _ => ?_, fun _ => ⟨fun _ => ?_, fun _ => ?_⟩⟩⟩
  · refine advances hm₁ (parseRawBytes_runs hm₁.fits htoken hdigit) (by omega) fun p s₂ _ hm₂ => ?_
    exact ⟨trivial, hm₂.weaken (by omega)⟩
  · exact (skipRawInteger_runs hm₁.fits).since hm₁ (fun _ h => h) (by omega)
  · refine advances hm₁ (peek_runs hm₁.fits) (by omega) fun token s₂ _ hm₂ => ?_
    have hnesting₂ := hm₂.nesting
    refine container_runs hm₂ (by omega) trivial fun hle _ _ => ?_
    exact (hinput ▸ ih hle).deeper hle
  · simp only [Scan.wp_bind, wp_position, Scan.wp_fail]
    exact hm₁.stop id h.offset (by omega)

/-- A rejected value is read first. -/
lemma rejectBep44Value_isValue {raw : Bool} (hdepth : InDepth depth) :
    IsValue input depth (rejectBep44Value field depth raw) Q := by
  intro s h hinput hnesting
  have hend : ∀ s', Moved 0 1 8 s s' → Stopped 8 s (.unsupported field s.offset) s' :=
    fun s' hm => hm.stop id h.offset (by omega)
  unfold Runs rejectBep44Value
  cases raw
  · simp only [Bool.false_eq_true, if_false, Scan.wp_bind, wp_position]
    exact Scan.wp_mono (skipGeneric_isValue hdepth s h hinput hnesting)
      (fun _ s' hm => hend s' hm.2) fun _ _ hstop => hstop
  · simp only [if_true, Scan.wp_bind, wp_position]
    exact Scan.wp_mono (skipRaw_isValue hdepth s h hinput hnesting)
      (fun _ s' hm => hend s' hm.2) fun _ _ hstop => hstop

end

/-! ## Typed values -/

section

variable {input : List UInt8} {depth : Nat}

lemma parseCompact_isValue {α : Type} {decode : List UInt8 → Outcome CompactCodecError α}
    {bytes : Inbound (Nat × List UInt8)} {Q : α → Prop}
    (hbytes : IsValue input depth bytes fun p => p.1 ≤ input.length)
    (hdecode : ∀ value, (decode value).Ensures Q fun _ => True) :
    IsValue input depth (parseCompact decode bytes) Q :=
  hbytes.decoded hdecode fun _ _ => ⟨id, rfl⟩

variable {field : String}

lemma parseId_isValue (hdepth : InDepth depth) :
    IsValue input depth (parseId field depth) fun _ => True :=
  parseCompact_isValue (parseScalarBytes_isValue hdepth) Id20.decode_ensures

lemma parseBloom_isValue : IsValue input depth (parseBloom field) fun _ => True :=
  parseBytes_isValue.decoded ScrapeBloomFilter.decode_ensures fun _ _ => ⟨id, rfl⟩

lemma decodeNodesField_ensures (ipv6 : Bool) (value : List UInt8) :
    (decodeNodesField ipv6 value).Ensures
      (fun field => ∀ nodes, field = some nodes → nodes ≠ [] ∧ OfFamily ipv6 nodes)
      fun _ => True := by
  unfold decodeNodesField
  split
  · intro nodes hnodes
    cases hnodes
  · rename_i hvalue
    have hensures := decodeNodes_ensures value ipv6
    cases hdecode : decodeNodes value ipv6 with
    | ok nodes =>
      rw [hdecode] at hensures
      rintro _ ⟨⟩
      refine ⟨?_, hensures.1⟩
      rintro rfl
      exact hvalue (by simpa using hensures.2)
    | error e => trivial
    | fault => simp [hdecode] at hensures

lemma parseByteList_isValue (hdepth : 1 ≤ depth) :
    IsValue input depth (parseByteList field depth) fun _ => True := by
  intro s h hinput hnesting
  refine container_runs h.moved (by omega) trivial fun hle values _ => ?_
  refine IsValue.deeper ?_ hle
  exact (parseScalarBytes_isValue (by omega)).map fun _ _ => trivial

lemma compactAddr_decode_ensures (value : List UInt8) :
    (CompactAddr.decode value).Ensures (fun _ => True) fun _ => True :=
  (CompactAddr.decode_ensures value).mono (fun _ _ => trivial) fun _ h => h

lemma parseAddresses_isValue : IsValue input depth (parseAddresses depth) fun _ => True := by
  intro s h hinput hnesting
  refine container_runs h.moved (by omega) trivial fun _ values _ => ?_
  exact (parseCompact_isValue parseBytes_isValue compactAddr_decode_ensures).map fun _ _ => trivial

lemma parseError_isValue : IsValue input depth (parseError depth) fun _ => True := by
  intro s h hinput hnesting
  unfold Runs parseError
  refine advances h.moved (peek_runs h) (by omega) fun token s₁ _ hm₁ => ?_
  have hnesting₁ := hm₁.nesting
  simp only [Scan.wp_ite]
  refine ⟨fun _ => ?_, fun _ => ⟨fun _ => ?_, fun _ => ?_⟩⟩
  · refine advances hm₁ (parseBytes_runs hm₁.fits) (by omega) fun p s₂ _ hm₂ => ?_
    exact ⟨trivial, hm₂.weaken (by omega)⟩
  · refine advances hm₁ (startContainer_runs hm₁.fits (by omega)) (by omega) fun _ s₂ hle hm₂ => ?_
    -- an error list has two entries at least
    have hshort : ∀ s', Moved 0 1 0 s s' →
        wp (do Scan.fail (.shape "e" .errorValue (← sub (← position) 1)) : Inbound KrpcError)
          (fun a s'' => True ∧ Moved 0 1 8 s s'') (Stopped 8 s) s' := by
      intro s' hm
      have hoffset := hm.offset
      have hbound : s'.offset ≤ s.input.length := hm.input ▸ hm.fits.offset
      simp only [Scan.wp_bind, wp_position, wp_sub, Scan.wp_fail]
      refine ⟨by omega, hm.stop id ?_ (by omega)⟩
      simp only [InboundError.offset]
      omega
    have hnesting₂ := hm₂.nesting
    refine advances_end hm₂ (by omega) (fun s₃ hm₃ => hshort s₃ (hm₃.weaken (by omega)))
      fun s₃ hm₃ => ?_
    refine advances hm₃ (parseInteger_runs hm₃.fits) (by omega) fun code s₄ _ hm₄ => ?_
    have hnesting₄ := hm₄.nesting
    refine advances_end hm₄ (by omega) (fun s₅ hm₅ => hshort s₅ (hm₅.weaken (by omega)))
      fun s₅ hm₅ => ?_
    refine advances hm₅ (parseBytes_runs hm₅.fits) (by omega) fun message s₆ _ hm₆ => ?_
    have hnesting₆ := hm₆.nesting
    rw [Scan.wp_bind]
    refine Scan.wp_mono (whileOpen_runs (I := fun _ _ => True) (fun _ _ _ _ h => h) hm₆.fits
      (by omega) ?_ () trivial) ?_ fun e s₇ hstop => hm₆.stopped hstop (by omega)
    · rintro ⟨⟩ t ht _ htnesting -
      have hskip : IsValue t.input (depth + 1) (skipGeneric (depth + 1)) _ :=
        skipGeneric_isValue (by omega)
      have hentry := hskip.deeper hle
      exact (hentry t ht rfl (by omega)).since ht.moved (fun _ h => h) (by omega)
    · rintro ⟨⟩ s₇ ⟨-, hm₇⟩
      exact ⟨trivial, (hm₆.trans hm₇).weaken (by omega)⟩
  · simp only [Scan.wp_bind, wp_position, Scan.wp_fail]
    exact hm₁.stop id (hm₁.input ▸ hm₁.fits.offset) (by omega)

end

/-! ## Dictionaries -/

section

variable {input : List UInt8} {depth : Nat}

lemma filter_ne_zero (value : Id20) : (some value).filter (· ≠ Id20.zero) ≠ some .zero := by
  simp only [Option.filter_some]
  split <;> simp_all

lemma argsValue_isValue {args : MessageArgs} (hargs : args.Normal) (key : Option ArgsKey)
    (hdepth : InDepth depth) :
    IsValue input depth (argsValue depth args key) MessageArgs.Normal := by
  have hother : ∀ {α : Type} {m : Inbound α} {Q : α → Prop}, IsValue input depth m Q →
      IsValue input depth (m >>= fun _ => pure args) MessageArgs.Normal :=
    fun hm => hm.map fun _ _ => hargs
  rcases hargs with ⟨hinfoHash, htarget⟩
  have hinteger : ∀ {field : String}, IsValue input depth (parseScalarInteger field depth) _ :=
    parseScalarInteger_isValue hdepth
  rcases key with _ | key
  · exact hother (skipGeneric_isValue hdepth)
  cases key with
  | id => exact (parseId_isValue hdepth).map fun _ _ => ⟨hinfoHash, htarget⟩
  | infoHash =>
    exact (parseId_isValue hdepth).map fun value _ => ⟨filter_ne_zero value, htarget⟩
  | target =>
    exact (parseId_isValue hdepth).map fun value _ => ⟨hinfoHash, filter_ne_zero value⟩
  | token => exact (parseScalarBytes_isValue hdepth).map fun _ _ => ⟨hinfoHash, htarget⟩
  | port | noSeed | scrape => exact hinteger.map fun _ _ => ⟨hinfoHash, htarget⟩
  | impliedPort => exact (parseBool_isValue hdepth).map fun _ _ => ⟨hinfoHash, htarget⟩
  | want => exact (parseByteList_isValue hdepth.1).map fun _ _ => ⟨hinfoHash, htarget⟩
  | seq | cas => exact hother hinteger
  | k | salt | sig => exact hother parseBytes_isValue
  | v => exact rejectBep44Value_isValue hdepth

lemma parseArgs_isValue (hdepth : 1 ≤ depth) :
    IsValue input depth (parseArgs depth) MessageArgs.Normal := by
  intro s h hinput hnesting
  refine container_runs h.moved (by omega) ⟨by simp [emptyArgs], by simp [emptyArgs]⟩ ?_
  intro hle args hargs
  refine IsValue.deeper ?_ hle
  refine (parseScalarBytes_isValue (by omega)).keyed fun p _ => ?_
  exact (argsValue_isValue hargs _ (by omega)).deeper hle

lemma returnValue_isValue {response : MessageReturn} (hresponse : response.Normal)
    (key : Option ReturnKey) (hdepth : InDepth depth) :
    IsValue input depth (returnValue depth response key) MessageReturn.Normal := by
  have hother : ∀ {α : Type} {m : Inbound α} {Q : α → Prop}, IsValue input depth m Q →
      IsValue input depth (m >>= fun _ => pure response) MessageReturn.Normal :=
    fun hm => hm.map fun _ _ => hresponse
  rcases hresponse with ⟨hnodes, hnodes6⟩
  have hbytes : ∀ {field : String}, IsValue input depth (parseScalarBytes field depth) _ :=
    parseScalarBytes_isValue hdepth
  have hinteger : ∀ {field : String}, IsValue input depth (parseScalarInteger field depth) _ :=
    parseScalarInteger_isValue hdepth
  rcases key with _ | key
  · exact hother (skipGeneric_isValue hdepth)
  cases key with
  | id => exact (parseId_isValue hdepth).map fun _ _ => ⟨hnodes, hnodes6⟩
  | nodes =>
    exact (parseCompact_isValue hbytes (decodeNodesField_ensures false)).map fun _ h => ⟨h, hnodes6⟩
  | nodes6 =>
    exact (parseCompact_isValue hbytes (decodeNodesField_ensures true)).map fun _ h => ⟨hnodes, h⟩
  | token => exact hbytes.map fun _ _ => ⟨hnodes, hnodes6⟩
  | values => exact parseAddresses_isValue.map fun _ _ => ⟨hnodes, hnodes6⟩
  | interval | num => exact hinteger.map fun _ _ => ⟨hnodes, hnodes6⟩
  | samples =>
    exact (parseCompact_isValue hbytes decodeSamples_ensures).map fun _ _ => ⟨hnodes, hnodes6⟩
  | bfsd | bfpe => exact parseBloom_isValue.map fun _ _ => ⟨hnodes, hnodes6⟩
  | seq => exact hother hinteger
  | k | sig => exact hother parseBytes_isValue
  | v => exact rejectBep44Value_isValue hdepth

lemma parseReturn_isValue (hdepth : 1 ≤ depth) :
    IsValue input depth (parseReturn depth) MessageReturn.Normal := by
  intro s h hinput hnesting
  refine container_runs h.moved (by omega) ⟨by simp [emptyReturn], by simp [emptyReturn]⟩ ?_
  intro hle response hresponse
  refine IsValue.deeper ?_ hle
  refine (parseScalarBytes_isValue (by omega)).keyed fun p _ => ?_
  exact (returnValue_isValue hresponse _ (by omega)).deeper hle

lemma messageValue_isValue {message : KrpcMessage} (hmessage : message.Normal)
    (key : Option MessageKey) :
    IsValue input 2 (messageValue message key) KrpcMessage.Normal := by
  have hdepth : InDepth 2 := by decide
  have hbytes : ∀ {field : String}, IsValue input 2 (parseScalarBytes field 2) _ :=
    parseScalarBytes_isValue hdepth
  rcases hmessage with ⟨hargs, hresponse⟩
  rcases key with _ | key
  · exact (skipGeneric_isValue hdepth).map fun _ _ => ⟨hargs, hresponse⟩
  cases key with
  | t | y | q | v => exact hbytes.map fun _ _ => ⟨hargs, hresponse⟩
  | a =>
    refine (parseArgs_isValue hdepth.1).map fun args hnormal => ⟨?_, hresponse⟩
    rintro _ ⟨⟩
    exact hnormal
  | r =>
    refine (parseReturn_isValue hdepth.1).map fun response hnormal => ⟨hargs, ?_⟩
    rintro _ ⟨⟩
    exact hnormal
  | e => exact parseError_isValue.map fun _ _ => ⟨hargs, hresponse⟩
  | ip =>
    exact (parseCompact_isValue parseBytes_isValue compactAddr_decode_ensures).map
      fun _ _ => ⟨hargs, hresponse⟩
  | ro => exact (parseBool_isValue hdepth).map fun _ _ => ⟨hargs, hresponse⟩

/-- **The whole message.** -/
lemma parseMessage_runs {s : Cursor} (h : s.Fits) (hnesting : s.trace.nesting = 0) :
    Runs parseMessage 0 1 8 8 KrpcMessage.Normal s := by
  unfold Runs parseMessage
  simp only [startDictionary, Scan.wp_bind]
  refine wp_container (I := fun message _ => message.Normal) h.moved (by omega)
    (fun _ _ _ _ h => h) (fun _ => ⟨by simp [emptyMessage], by simp [emptyMessage]⟩) ?_ ?_
  · intro hle message t ht htinput htnesting hmessage
    have hkey : IsValue t.input 2 (parseScalarBytes "KRPC dictionary key" 2) _ :=
      parseScalarBytes_isValue (by decide)
    have hentry := hkey.keyed fun p _ => messageValue_isValue hmessage (MessageKey.ofWire p.2)
    have hruns : wp _ (fun (message' : KrpcMessage) t' => message'.Normal ∧ Moved 0 1 1 t t')
        (Stopped 8 t) t :=
      Scan.wp_mono (hentry t ht rfl htnesting)
        (fun _ _ h => ⟨h.1, h.2.weaken (by omega)⟩) fun _ _ hstop => hstop
    simpa only [Scan.wp_bind] using hruns
  · intro message s' hmessage hm
    simp only [Scan.wp_read, Scan.wp_ensure, Scan.wp_pure]
    exact ⟨fun _ => ⟨hmessage, hm.weaken (by omega)⟩,
      fun _ => hm.stop id (hm.input ▸ hm.fits.offset) (by omega)⟩

end

end Inbound

/-! ## The decoder -/

variable {input : List UInt8}

lemma Cursor.start_fits (h : input.length ≤ maxInboundDatagramBytes) : (Cursor.start input).Fits :=
  ⟨h, Nat.zero_le _, Nat.zero_le _, Nat.zero_le _, Nat.zero_le _, by simp [start]⟩

lemma KrpcMessage.decodeInboundRun_of_le (h : input.length ≤ maxInboundDatagramBytes) :
    decodeInboundRun input = Inbound.parseMessage (.start input) := by
  rw [decodeInboundRun, Cursor.new, if_neg (Nat.not_lt.mpr h)]

lemma KrpcMessage.decodeInboundRun_of_lt (h : maxInboundDatagramBytes < input.length) :
    decodeInboundRun input =
      (.error (.limit .datagramBytes 0 input.length maxInboundDatagramBytes), .start input) := by
  rw [decodeInboundRun, Cursor.new, if_pos h]

/-- How a run of the decoder ends, by its account. -/
lemma KrpcMessage.decodeInboundRun_cases (h : input.length ≤ maxInboundDatagramBytes) :
    (∃ message s, decodeInboundRun input = (.ok message, s) ∧ message.Normal ∧
      Moved 0 1 8 (.start input) s) ∨
    ∃ e s, decodeInboundRun input = (.error e, s) ∧ Stopped 8 (.start input) e s := by
  rw [decodeInboundRun_of_le h]
  exact Scan.cases_of_wp (Inbound.parseMessage_runs (Cursor.start_fits h) rfl)

/-- **The inbound decoder is safe.**  Every byte string is decoded without a fault: no index or
slice outside the input, no counter past its type, no loop or recursion without end.  Containers
nest at most eight deep, the steps are linear in the input, every reported offset lies in it, and
the value limit is never the reason to fail: a datagram too long for it is rejected before. -/
theorem KrpcMessage.decodeInbound_safe (input : List UInt8) :
    (decodeInboundRun input).1 ≠ .fault ∧
    (decodeInboundRun input).2.offset ≤ input.length ∧
    (∀ p ∈ (decodeInboundRun input).2.trace.slices, p.1 ≤ p.2 ∧ p.2 ≤ input.length) ∧
    (decodeInboundRun input).2.trace.deepest ≤ maxInboundNestingDepth ∧
    (decodeInboundRun input).2.trace.steps ≤ 8 * input.length + 8 ∧
    (∀ e, decodeInbound input = .error e → e.offset ≤ input.length ∧ ¬ e.IsValueCount) ∧
    (maxInboundDatagramBytes < input.length →
      decodeInbound input =
        .error (.limit .datagramBytes 0 input.length maxInboundDatagramBytes) ∧
      (decodeInboundRun input).2.trace.steps = 0) := by
  unfold decodeInbound
  rcases Nat.lt_or_ge maxInboundDatagramBytes input.length with hlong | hfits
  · rw [decodeInboundRun_of_lt hlong]
    refine ⟨by simp, Nat.zero_le _, by simp [Cursor.start], Nat.zero_le _, Nat.zero_le _, ?_,
      fun _ => ⟨rfl, rfl⟩⟩
    rintro e ⟨⟩
    exact ⟨Nat.zero_le _, id⟩
  · rcases decodeInboundRun_cases hfits with ⟨message, s, hrun, _, hm⟩ | ⟨e, s, hrun, hstop⟩
    · have hsteps := hm.steps
      have hinput : s.input = input := hm.input
      have hoffset : s.offset ≤ input.length := hinput ▸ hm.fits.offset
      have hslices := hinput ▸ hm.fits.slices
      rw [hrun]
      refine ⟨by simp, hoffset, hslices, hm.fits.deepest, ?_, by simp, fun hlong => ?_⟩
      · simp only [Cursor.start] at hsteps ⊢
        omega
      · omega
    · have hsteps := hstop.steps
      have hoffset : s.offset ≤ input.length := hstop.offset
      rw [hrun]
      refine ⟨by simp, hoffset, hstop.slices, hstop.deepest, ?_, ?_, fun hlong => ?_⟩
      · simp only [Cursor.start] at hsteps ⊢
        omega
      · rintro _ ⟨⟩
        exact ⟨hstop.reported, hstop.reason⟩
      · omega

end Bitmagnet.Dht
