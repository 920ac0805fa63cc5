import Bitmagnet.Dht.Inbound

/-!
# The accounts of the inbound scanner

Two accounts, kept along the whole scan, bound what the scanner does.

* **Values.**  A value takes at least two bytes, one to open it and one to close
  it.  Between values, twice the number of values begun is at most the bytes read
  plus the containers still open (`Cursor.Fits.values`), so the value limit is out
  of reach of a datagram that passed the length test.
* **Steps.**  Every byte read pays for eight steps.  `Moved` records what a part of
  the scan leaves of that (its gain), and `Stopped` what a failing part may have
  overdrawn (its slack).

Inside a value, that it is not yet paid for is recorded by `Began`.  `advances` chains the
parts: each function has one specification, and its callers add up gains.
-/

namespace Bitmagnet.Dht

open Scan (wp)

/-! ## Accounts -/

/-- What holds of the cursor between values. -/
structure Cursor.Fits (s : Cursor) : Prop where
  size : s.input.length ≤ maxInboundDatagramBytes
  offset : s.offset ≤ s.input.length
  values : 2 * s.values ≤ s.offset + s.trace.nesting
  nesting : s.trace.nesting ≤ maxInboundNestingDepth
  deepest : s.trace.deepest ≤ maxInboundNestingDepth
  slices : ∀ p ∈ s.trace.slices, p.1 ≤ p.2 ∧ p.2 ≤ s.input.length

/-- From `s` to `s'`, both between values: the change of the nesting, a lower bound on the
bytes read, and the gain in steps. -/
structure Moved (nested : Int) (bytes : Nat) (gain : Int) (s s' : Cursor) : Prop where
  fits : s'.Fits
  input : s'.input = s.input
  nesting : (s'.trace.nesting : Int) = s.trace.nesting + nested
  offset : s.offset + bytes ≤ s'.offset
  steps : (s'.trace.steps : Int) + 8 * s.offset + gain ≤ s.trace.steps + 8 * s'.offset

/-- The offset an error reports. -/
def InboundError.offset : InboundError → Nat
  | limit _ offset _ _ | malformed _ offset | shape _ _ offset | compact offset _
  | scrapeBloom offset _ | unsupported _ offset => offset

/-- The value limit is the reason. -/
def InboundError.IsValueCount : InboundError → Prop
  | limit .valueCount _ _ _ => True
  | _ => False

/-- From `s` to a failure: the slack is what the steps may be overdrawn by. -/
structure Stopped (slack : Int) (s : Cursor) (e : InboundError) (s' : Cursor) : Prop where
  reason : ¬ e.IsValueCount
  reported : e.offset ≤ s.input.length
  input : s'.input = s.input
  offset : s'.offset ≤ s.input.length
  deepest : s'.trace.deepest ≤ maxInboundNestingDepth
  slices : ∀ p ∈ s'.trace.slices, p.1 ≤ p.2 ∧ p.2 ≤ s.input.length
  steps : (s'.trace.steps : Int) + 8 * s.offset ≤ s.trace.steps + 8 * s'.offset + slack

variable {s : Cursor} {b : Nat} {g n : Int} {e : InboundError}

lemma Cursor.Fits.moved (h : s.Fits) : Moved 0 0 0 s s :=
  ⟨h, rfl, by simp, by simp, by simp⟩

lemma Moved.trans {n' g' : Int} {b' : Nat} {s₁ s₂ : Cursor} (h : Moved n b g s s₁)
    (h' : Moved n' b' g' s₁ s₂) : Moved (n + n') (b + b') (g + g') s s₂ where
  fits := h'.fits
  input := h'.input.trans h.input
  nesting := by have := h.nesting; have := h'.nesting; omega
  offset := by have := h.offset; have := h'.offset; omega
  steps := by have := h.steps; have := h'.steps; omega

/-- Claim less than was shown. -/
lemma Moved.weaken {n' g' : Int} {b' : Nat} {s' : Cursor} (h : Moved n b g s s')
    (hle : n = n' ∧ b' ≤ b ∧ g' ≤ g) : Moved n' b' g' s s' where
  fits := h.fits
  input := h.input
  nesting := hle.1 ▸ h.nesting
  offset := by have := h.offset; omega
  steps := by have := h.steps; omega

/-- A gain made before a failure covers its slack. -/
lemma Moved.stopped {c C : Int} {s₁ s₂ : Cursor} (h : Moved n b g s s₁) (h' : Stopped c s₁ e s₂)
    (hc : c ≤ C + g) : Stopped C s e s₂ where
  reason := h'.reason
  reported := h.input ▸ h'.reported
  input := h'.input.trans h.input
  offset := h.input ▸ h'.offset
  deepest := h'.deepest
  slices := h.input ▸ h'.slices
  steps := by have := h.steps; have := h'.steps; omega

/-- An error raised where the scan stands. -/
lemma Moved.stop {C : Int} {s' : Cursor} (h : Moved n b g s s') (hreason : ¬ e.IsValueCount)
    (hreported : e.offset ≤ s.input.length) (hC : 0 ≤ C + g) : Stopped C s e s' :=
  h.stopped ⟨hreason, h.input ▸ hreported, rfl, h.fits.offset, h.fits.deepest, h.fits.slices,
    by omega⟩ hC

/-! ## Between values -/

namespace Cursor.Fits

open Inbound (usizeLimit i32Limit)

variable {s : Cursor}

lemma tick (h : s.Fits) (n : Nat) : (s.tick n).Fits := ⟨h.1, h.2, h.3, h.4, h.5, h.6⟩

/-- **The value limit is out of reach** where there is another byte. -/
lemma values_le (h : s.Fits) (hlt : s.offset < s.input.length) :
    s.values + 1 ≤ maxInboundValues := by
  have h₁ := h.size
  have h₂ := h.values
  have h₃ := h.nesting
  simp only [maxInboundDatagramBytes, maxInboundValues, maxInboundNestingDepth] at *
  omega

lemma size_lt (h : s.Fits) : s.input.length + 1 < usizeLimit := by
  have h₁ := h.size
  simp only [maxInboundDatagramBytes, usizeLimit] at *
  omega

/-- A count of entries that is at most the offset can be raised. -/
lemma count_lt (h : s.Fits) {count : Nat} (hcount : count ≤ s.offset) : count + 1 < i32Limit := by
  have h₁ := h.size
  have h₂ := h.offset
  simp only [maxInboundDatagramBytes, i32Limit] at *
  omega

end Cursor.Fits

/-! ## Inside a value -/

/-- Inside a value that began at `s`: it is counted, and not yet paid for. -/
structure Began (bytes : Nat) (gain : Int) (s t : Cursor) : Prop where
  start : s.Fits
  input : t.input = s.input
  bound : t.offset ≤ s.input.length
  values : t.values = s.values + 1
  nesting : t.trace.nesting = s.trace.nesting
  deepest : t.trace.deepest = s.trace.deepest
  slices : ∀ p ∈ t.trace.slices, p.1 ≤ p.2 ∧ p.2 ≤ s.input.length
  offset : s.offset + bytes ≤ t.offset
  steps : (t.trace.steps : Int) + 8 * s.offset + gain ≤ s.trace.steps + 8 * t.offset

namespace Began

open Inbound (usizeLimit skipped skipped_le)

variable {b : Nat} {g : Int} {s t : Cursor}

section

variable (h : Began b g s t)
include h

lemma size_lt : t.input.length + 1 < usizeLimit := h.input ▸ h.start.size_lt

/-- Two bytes pay for the value. -/
lemma finish (hb : 2 ≤ b) : Moved 0 b g s t where
  fits := by
    have hvalues := h.start.values
    have hoffset := h.offset
    refine ⟨h.input ▸ h.start.size, h.input ▸ h.bound, ?_, h.nesting ▸ h.start.nesting,
      h.deepest ▸ h.start.deepest, h.input ▸ h.slices⟩
    rw [h.values, h.nesting]
    omega
  input := h.input
  nesting := by have := h.nesting; omega
  offset := h.offset
  steps := h.steps

lemma stop {C : Int} (hreason : ¬ e.IsValueCount) (hreported : e.offset ≤ s.input.length)
    (hC : 0 ≤ C + g) : Stopped C s e t where
  reason := hreason
  reported := hreported
  input := h.input
  offset := h.bound
  deepest := h.deepest ▸ h.start.deepest
  slices := h.slices
  steps := by have := h.steps; omega

lemma tick : Began b (g - 1) s (t.tick 1) :=
  { h with steps := by have := h.steps; simp; omega }

lemma advance (hlt : t.offset < t.input.length) : Began (b + 1) (g + 8) s (t.seek (t.offset + 1)) :=
  { h with
    bound := by rw [h.input] at hlt; simp; omega
    offset := by have := h.offset; simp; omega
    steps := by have := h.steps; simp; omega }

lemma skip (p : UInt8 → Bool) :
    Began (b + skipped p t) (g + 7 * skipped p t - 1) s
      ((t.tick (skipped p t + 1)).seek (t.offset + skipped p t)) :=
  { h with
    bound := h.input ▸ skipped_le p (h.input ▸ h.bound)
    offset := by have := h.offset; simp; omega
    steps := by have := h.steps; simp; omega }

lemma sliced (lo hi : Nat) (hlo : lo ≤ hi) (hhi : hi ≤ t.input.length) :
    Began b (g - (hi - lo)) s (t.sliced lo hi) :=
  { h with
    slices := by
      intro p hp
      rcases List.mem_cons.mp hp with rfl | hp
      · exact ⟨hlo, h.input ▸ hhi⟩
      · exact h.slices p hp
    steps := by have := h.steps; simp; omega }

/-- Take a slice and go behind it. -/
lemma take (length : Nat) (hlt : t.offset + length ≤ t.input.length) :
    Began (b + length) (g + 7 * length) s
      ((t.sliced t.offset (t.offset + length)).seek (t.offset + length)) :=
  { h.sliced _ _ (Nat.le_add_right _ _) hlt with
    bound := h.input ▸ hlt
    offset := by have := h.offset; simp; omega
    steps := by have := h.steps; simp; omega }

end

end Began

lemma Cursor.Fits.began (h : s.Fits) : Began 0 (-1) s ((s.tick 1).counted (s.values + 1)) :=
  ⟨h, rfl, h.offset, rfl, rfl, rfl, h.slices, le_refl _, by simp; omega⟩

/-- A failure before the value is counted. -/
lemma Cursor.Fits.stop (h : s.Fits) (hreason : ¬ e.IsValueCount)
    (hreported : e.offset ≤ s.input.length) : Stopped 1 s e (s.tick 1) :=
  Moved.stop (n := 0) (b := 0) (g := -1) ⟨h.tick 1, rfl, by simp, by simp, by simp; omega⟩
    hreason hreported (by omega)

namespace Inbound

open Cursor

/-- The specification of a part of the scanner: what it moves, or how it stops. -/
def Runs {α : Type} (m : Inbound α) (nested : Int) (bytes : Nat) (gain slack : Int)
    (Q : α → Prop) (s : Cursor) : Prop :=
  wp m (fun a s' => Q a ∧ Moved nested bytes gain s s') (Stopped slack s) s

section Chains

variable {α β : Type} {m : Inbound α} {f : α → Inbound β} {Q : α → Prop} {R : β → Cursor → Prop}
variable {n n' g g' c C : Int} {b b' : Nat} {s₀ s : Cursor}

/-- **Chaining.**  After `n`, `b`, `g` since `s₀`, run `m` and continue. -/
lemma advances (hm : Moved n b g s₀ s) (hruns : Runs m n' b' g' c Q s) (hc : c ≤ C + g)
    (hnext : ∀ a s', Q a → Moved (n + n') (b + b') (g + g') s₀ s' → wp (f a) R (Stopped C s₀) s') :
    wp (m >>= f) R (Stopped C s₀) s := by
  rw [Scan.wp_bind]
  refine Scan.wp_mono hruns ?_ ?_
  · rintro a s' ⟨hQ, hmoved⟩
    exact hnext a s' hQ (hm.trans hmoved)
  · intro e s' hstop
    exact hm.stopped hstop hc

/-- The last part of a chain. -/
lemma Runs.since {Q' : α → Prop} {n₀ g₀ : Int} {b₀ : Nat} (hruns : Runs m n' b' g' c Q s)
    (hm : Moved n b g s₀ s) (hQ : ∀ a, Q a → Q' a)
    (hle : n + n' = n₀ ∧ b₀ ≤ b + b' ∧ g₀ ≤ g + g' ∧ c ≤ C + g) :
    wp m (fun a s' => Q' a ∧ Moved n₀ b₀ g₀ s₀ s') (Stopped C s₀) s := by
  refine Scan.wp_mono hruns ?_ ?_
  · rintro a s' ⟨hQa, hmoved⟩
    exact ⟨hQ a hQa, (hm.trans hmoved).weaken ⟨hle.1, hle.2.1, hle.2.2.1⟩⟩
  · intro e s' hstop
    exact hm.stopped hstop hle.2.2.2

end Chains

/-! ## Primitives -/

section

variable {s : Cursor}

lemma peek_runs (h : s.Fits) :
    Runs peek 0 0 (-1) 1 (fun byte => s.input[s.offset]? = some byte) s := by
  simp only [Runs, wp_peek]
  refine ⟨fun byte hbyte => ⟨hbyte, h.tick 1, rfl, by simp, by simp, by simp; omega⟩, fun _ => ?_⟩
  exact h.stop id h.offset

/-- `begin_value` counts the value and never meets its limit. -/
lemma wp_beginValue_of_fits (h : s.Fits) {Q : Nat → Cursor → Prop} {C : Int} (hC : 1 ≤ C)
    (hQ : s.offset < s.input.length → Began 0 (-1) s ((s.tick 1).counted (s.values + 1)) →
      Q s.offset ((s.tick 1).counted (s.values + 1))) : wp beginValue Q (Stopped C s) s := by
  rw [wp_beginValue]
  refine ⟨fun hlt => ?_, fun _ => h.moved.stopped (h.stop id h.offset) (by omega)⟩
  have hvalues := h.values_le hlt
  have hlimit : maxInboundValues < usizeLimit := by decide
  exact ⟨by omega, fun _ => hQ hlt h.began, fun hnot => absurd hvalues hnot⟩

lemma startContainer_runs {field : String} {expected : InboundShapeKind} {token : UInt8}
    {depth : Nat} (h : s.Fits) (hdepth : s.trace.nesting < depth) :
    Runs (startContainer field expected token depth) 1 1 6 2
      (fun _ => depth ≤ maxInboundNestingDepth) s := by
  unfold Runs startContainer
  rw [Scan.wp_bind]
  refine wp_beginValue_of_fits h (by omega) fun hlt hbegan => ?_
  simp only [Scan.wp_bind, Scan.wp_ensure, wp_get?, wp_advance, Scan.wp_update]
  refine ⟨fun hle => ⟨fun _ => ⟨?_, hle, ?_⟩, fun _ => ?_⟩, fun _ => ?_⟩
  · have hsize := h.size_lt
    simp
    omega
  · -- the opened container owes its closing byte
    have hvalues := h.values
    have hsteps := (hbegan.tick.advance hlt).steps
    refine ⟨⟨h.size, ?_, ?_, ?_, ?_, h.slices⟩, rfl, ?_, ?_, ?_⟩
    all_goals simp at hsteps ⊢
    · omega
    · omega
    · omega
    · have hdeepest := h.deepest
      omega
    · omega
  · exact hbegan.tick.stop id h.offset (by omega)
  · exact hbegan.stop id h.offset (by omega)

lemma endContainer_cases (h : s.Fits) (hopen : 1 ≤ s.trace.nesting) :
    wp endContainer
      (fun closed s' => if closed then Moved (-1) 1 7 s s' else Moved 0 0 (-1) s s')
      (Stopped 1 s) s := by
  unfold endContainer
  have hsize := h.size_lt
  simp only [Scan.wp_bind, wp_peek, Scan.wp_ite, wp_advance, Scan.wp_update, Scan.wp_pure]
  refine ⟨fun byte hbyte => ⟨fun _ => ⟨?_, ?_⟩, fun _ => ?_⟩, fun _ => ?_⟩
  · have hlt := (List.getElem?_eq_some_iff.mp hbyte).1
    simp
    omega
  · have hlt := (List.getElem?_eq_some_iff.mp hbyte).1
    have hvalues := h.values
    have hnesting := h.nesting
    refine ⟨⟨h.size, ?_, ?_, ?_, h.deepest, h.slices⟩, rfl, ?_, ?_, ?_⟩
    all_goals simp
    all_goals omega
  · exact ⟨h.tick 1, rfl, by simp, by simp, by simp; omega⟩
  · exact h.stop id h.offset

/-- Continue after `end_container`, on both of its answers. -/
lemma advances_end {β : Type} {f : Bool → Inbound β} {R : β → Cursor → Prop} {C : Int}
    {s₀ : Cursor} (hm : Moved n b g s₀ s) (hle : 1 ≤ s.trace.nesting ∧ 1 ≤ C + g)
    (hclosed : ∀ s', Moved (n - 1) (b + 1) (g + 7) s₀ s' → wp (f true) R (Stopped C s₀) s')
    (hentry : ∀ s', Moved n b (g - 1) s₀ s' → wp (f false) R (Stopped C s₀) s') :
    wp (endContainer >>= f) R (Stopped C s₀) s := by
  rw [Scan.wp_bind]
  refine Scan.wp_mono (endContainer_cases hm.fits hle.1) ?_ fun e s' hstop =>
    hm.stopped hstop hle.2
  rintro (_ | _) s' hstep
  · exact hentry s' ((hm.trans (show Moved 0 0 (-1) s s' from hstep)).weaken (by omega))
  · exact hclosed s' ((hm.trans (show Moved (-1) 1 7 s s' from hstep)).weaken (by omega))

lemma requireDictionaryValue_runs (h : s.Fits) :
    Runs requireDictionaryValue 0 0 (-1) 1 (fun _ => True) s := by
  unfold Runs requireDictionaryValue
  simp only [Scan.wp_bind, wp_peek, Scan.wp_ite, wp_position, Scan.wp_fail, Scan.wp_pure]
  refine ⟨fun byte _ => ⟨fun _ => ?_, fun _ => ?_⟩, fun _ => ?_⟩
  · exact h.stop id h.offset
  · exact ⟨trivial, h.tick 1, rfl, by simp, by simp, by simp; omega⟩
  · exact h.stop id h.offset

/-- **Loops over the entries of a container.**  `I` may speak of the offset, and grows with it. -/
lemma whileOpen_runs {β : Type} {body : β → Inbound β} {I : β → Nat → Prop}
    (hmono : ∀ b o o', o ≤ o' → I b o → I b o') (h : s.Fits) (hopen : 1 ≤ s.trace.nesting)
    (hbody : ∀ b t, t.Fits → t.input = s.input → t.trace.nesting = s.trace.nesting →
      I b t.offset → wp (body b) (fun b' t' => I b' t'.offset ∧ Moved 0 1 1 t t') (Stopped 8 t) t)
    (b : β) (hI : I b s.offset) :
    wp (whileOpen body b) (fun b' s' => I b' s'.offset ∧ Moved (-1) 1 7 s s') (Stopped 9 s) s := by
  simp only [whileOpen, Scan.wp_bind, Scan.wp_read]
  refine Scan.wp_iterate (fun b t => I b t.offset ∧ Moved 0 0 0 s t)
    (fun t => t.input.length - t.offset) ?_ _ b s ⟨hI, h.moved⟩ (by omega)
  rintro b t ⟨hI, hm⟩
  have hnesting := hm.nesting
  rw [openRound, Scan.wp_bind]
  refine Scan.wp_mono (endContainer_cases hm.fits (by omega)) ?_
    fun e t₁ hstop => hm.stopped hstop (by omega)
  rintro (_ | _) t₁ hstep
  · have hstep : Moved 0 0 (-1) t t₁ := hstep
    simp only [Bool.false_eq_true, if_false, Scan.wp_map]
    refine Scan.wp_mono (hbody b t₁ hstep.fits (hstep.input.trans hm.input)
      (by have := hstep.nesting; omega) (hmono _ _ _ hstep.offset hI)) ?_
      fun e t₂ hstop => (hm.trans hstep).stopped hstop (by omega)
    rintro b' t₂ ⟨hI', hm'⟩
    have hround : Moved 0 1 0 t t₂ := (hstep.trans hm').weaken (by omega)
    refine ⟨⟨hI', (hm.trans hround).weaken (by omega)⟩, ?_⟩
    have hlt := hround.offset
    have hle := hround.fits.offset
    rw [hround.input] at hle ⊢
    omega
  · have hstep : Moved (-1) 1 7 t t₁ := hstep
    exact ⟨hmono _ _ _ (by have := hstep.offset; omega) hI, (hm.trans hstep).weaken (by omega)⟩

end

/-! ## Byte strings and integers -/

section

variable {s : Cursor} {C g : Int} {b : Nat} {t : Cursor} {E : InboundError → Cursor → Prop}

/-- The digits of a length: six steps of each digit's eight are left, less two. -/
lemma lengthDigits_began (ht : Began b g s t) (hC : 2 ≤ C + g) :
    wp lengthDigits
      (fun p t' => p.1 = t.offset ∧ t'.input[t'.offset]? = some (ascii ':') ∧
        Began (b + skipped isAsciiDigit t) (g + 6 * skipped isAsciiDigit t - 2) s t')
      (Stopped C s) t := by
  unfold lengthDigits
  simp only [Scan.wp_bind, wp_position]
  refine wp_skipWhile (by have := ht.size_lt; omega) ?_
  have hskip := (ht.skip isAsciiDigit).tick
  have hle := skipped_le isAsciiDigit (s := t) (ht.input ▸ ht.bound)
  simp only [wp_get?, Scan.wp_ensure, wp_slice, Scan.wp_pure]
  refine ⟨fun hcolon => ⟨⟨by simp, by simpa using hle⟩, trivial, hcolon, ?_⟩, fun _ => ?_⟩
  · have hsliced := hskip.sliced t.offset (t.offset + skipped isAsciiDigit t) (by omega)
      (by simpa using hle)
    exact { hsliced with steps := by have := hsliced.steps; simp at this ⊢; omega }
  · exact hskip.stop id ht.bound (by omega)

/-- The bytes behind the colon. -/
lemma bytesBehind_began {length offset : Nat} (ht : Began b g s t)
    (hcolon : t.input[t.offset]? = some (ascii ':')) (hoffset : offset ≤ s.input.length)
    (hle : 1 ≤ b ∧ 0 ≤ C + g) :
    wp (bytesBehind length offset) (fun _ t' => Moved 0 1 (g + 8) s t') (Stopped C s) t := by
  have hlt := (List.getElem?_eq_some_iff.mp hcolon).1
  have hsize := ht.size_lt
  have hnext := ht.advance hlt
  unfold bytesBehind
  simp only [Scan.wp_bind, wp_advance, wp_position, Scan.wp_ensure, wp_sliceOrEnd,
    Scan.wp_update, Scan.wp_pure, Cursor.seek_offset, Cursor.seek_input]
  refine ⟨by omega, fun _ => ⟨fun hin => ?_, fun _ => ?_⟩, fun _ => ?_⟩
  · have htake := hnext.take length hin.2
    exact (htake.finish (by omega)).weaken (by omega)
  · exact hnext.stop id (by have := hnext.bound; exact this) (by omega)
  · exact hnext.stop id hoffset (by omega)

lemma wp_orFail {α : Type} {x : Option α} {Q : α → Cursor → Prop} (hQ : ∀ a, x = some a → Q a t)
    (hE : E e t) : wp (orFail x e) Q E t := by
  cases x with
  | some a => exact hQ a rfl
  | none => exact hE

lemma wp_canonicalLength {lengthStart : Nat} {lengthBytes : List UInt8} {Q : Nat → Cursor → Prop}
    (hQ : ∀ length, Q length t) (hE : E (.malformed .invalidByteStringLength lengthStart) t) :
    wp (canonicalLength lengthStart lengthBytes) Q E t := by
  unfold canonicalLength
  have hrest := wp_orFail (x := parseDecimalUsize lengthBytes) (fun length _ => hQ length) hE
  cases lengthBytes with
  | nil => simpa using hrest
  | cons digit rest =>
    simp only [Scan.wp_bind, Scan.wp_ite, List.getElem?_cons_zero, Outcome.ofOption_some,
      Scan.wp_lift, Outcome.ensures_ok, Scan.wp_ensure]
    exact ⟨fun _ => ⟨fun _ => hrest, fun _ => hE⟩, fun _ => hrest⟩

lemma parseBytes_runs {field : String} (h : s.Fits) :
    Runs (parseBytes field) 0 1 10 4 (fun p => p.1 ≤ s.input.length) s := by
  unfold Runs parseBytes
  rw [Scan.wp_bind]
  refine wp_beginValue_of_fits h (by omega) fun hlt hbegan => ?_
  obtain ⟨first, hfirst⟩ : ∃ first, s.input[s.offset]? = some first :=
    ⟨_, List.getElem?_eq_getElem hlt⟩
  simp only [Scan.wp_bind, wp_get?, counted_input, counted_offset, tick_input, tick_offset,
    hfirst, Scan.wp_ensure]
  refine ⟨fun hdigit => ?_, fun _ => hbegan.tick.stop id h.offset (by omega)⟩
  -- the first digit is one of the length's
  have hpos : 1 ≤ skipped isAsciiDigit (((s.tick 1).counted (s.values + 1)).tick 1) := by
    rw [skipped_of_some (by simpa using hfirst), if_pos hdigit]
    omega
  refine Scan.wp_mono (lengthDigits_began hbegan.tick (by omega)) ?_ fun _ _ hstop => hstop
  rintro ⟨lengthStart, lengthBytes⟩ t ⟨rfl, hcolon, ht⟩
  refine wp_canonicalLength (fun length => ?_) (ht.stop id h.offset (by omega))
  refine Scan.wp_mono (bytesBehind_began ht hcolon h.offset (by omega)) ?_ fun _ _ hstop => hstop
  intro value t' hm
  exact ⟨h.offset, hm.weaken (by omega)⟩

lemma parseRawBytes_runs (h : s.Fits) {first : UInt8} (hfirst : s.input[s.offset]? = some first)
    (hdigit : isAsciiDigit first) :
    Runs parseRawBytes 0 1 9 4 (fun _ => True) s := by
  unfold Runs parseRawBytes
  rw [Scan.wp_bind]
  refine wp_beginValue_of_fits h (by omega) fun hlt hbegan => ?_
  have hpos : 1 ≤ skipped isAsciiDigit ((s.tick 1).counted (s.values + 1)) := by
    rw [skipped_of_some (by simpa using hfirst), if_pos hdigit]
    omega
  rw [Scan.wp_bind]
  refine Scan.wp_mono (lengthDigits_began hbegan (by omega)) ?_ fun _ _ hstop => hstop
  rintro ⟨lengthStart, lengthBytes⟩ t ⟨_, hcolon, ht⟩
  rw [Scan.wp_bind]
  refine wp_orFail (fun length _ => ?_) (ht.stop id h.offset (by omega))
  refine Scan.wp_mono (bytesBehind_began ht hcolon h.offset (by omega)) ?_ fun _ _ hstop => hstop
  intro value t' hm
  exact ⟨trivial, hm.weaken (by omega)⟩

lemma skipToEnd_began (ht : Began b g s t) (hC : 2 ≤ C + g) :
    wp skipToEnd
      (fun _ t' => t'.input[t'.offset]? = some (ascii 'e') ∧
        ∃ k : Nat, t'.offset = t.offset + k ∧ Began (b + k) (g + 7 * k - 2) s t')
      (Stopped C s) t := by
  unfold skipToEnd
  rw [Scan.wp_bind]
  refine wp_skipWhile (by have := ht.size_lt; omega) ?_
  have hskip := (ht.skip (· != ascii 'e')).tick
  simp only [Scan.wp_bind, wp_get?, wp_position, Scan.wp_ensure]
  refine ⟨fun htoken => ⟨htoken, _, rfl, ?_⟩, fun _ => hskip.stop id hskip.bound (by omega)⟩
  exact { hskip with steps := by have := hskip.steps; omega }

lemma parseIntegerRaw_runs (h : s.Fits) :
    Runs parseIntegerRaw 0 1 12 4 (fun p => p.1 ≤ s.input.length) s := by
  unfold Runs parseIntegerRaw
  rw [Scan.wp_bind]
  refine wp_beginValue_of_fits h (by omega) fun hlt hbegan => ?_
  have hsize := h.size_lt
  have hstart := hbegan.tick.advance hlt
  simp only [Scan.wp_bind, wp_get?, Scan.wp_ensure, wp_advance, wp_position]
  refine ⟨fun _ => ⟨by simp; omega, ?_⟩, fun _ => hbegan.tick.stop id h.offset (by omega)⟩
  refine Scan.wp_mono (skipToEnd_began hstart (by omega)) ?_ fun _ _ hstop => hstop
  rintro ⟨⟩ t ⟨hend, k, hk, ht⟩
  have hraw := ht.sliced (s.offset + 1) t.offset
    (by have := ht.offset; omega) (by have := ht.bound; rw [ht.input]; exact this)
  have hlast := hraw.advance (List.getElem?_eq_some_iff.mp hend).1
  have hfinish := hlast.finish (by omega)
  have hsize' := ht.size_lt
  have hbound := ht.bound
  simp only [wp_slice, seek_offset, counted_offset, tick_offset, Scan.wp_pure,
    sliced_offset] at hk ⊢
  refine ⟨⟨by omega, ht.input ▸ hbound⟩, by omega, fun _ => ⟨h.offset, ?_⟩, fun _ => ?_⟩
  · exact hfinish.weaken (by omega)
  · exact hlast.stop id h.offset (by omega)

lemma validGenericInteger_ensures (raw : List UInt8) :
    (validGenericInteger raw).Ensures (fun _ => True) fun _ => False := by
  unfold validGenericInteger
  dsimp only
  split
  · trivial
  · rename_i hdigits
    split
    · trivial
    · cases hunsigned : unsigned raw with
      | nil => simp [hunsigned] at hdigits
      | cons first rest => simp

/-- A test of an integer's digits has a verdict. -/
lemma wp_validGenericInteger {raw : List UInt8} {Q : Bool → Cursor → Prop}
    (hQ : ∀ valid, Q valid t) : wp (Scan.lift (validGenericInteger raw)) Q E t := by
  rw [Scan.wp_lift]
  exact (validGenericInteger_ensures raw).mono (fun valid _ => hQ valid) fun _ h => h.elim

lemma parseInteger_runs {field : String} (h : s.Fits) :
    Runs (parseInteger field) 0 1 10 4 (fun p => p.1 ≤ s.input.length) s := by
  unfold Runs parseInteger
  refine advances h.moved (parseIntegerRaw_runs h) (by omega) ?_
  rintro ⟨offset, raw⟩ t hoffset hm
  simp only [Scan.wp_bind]
  refine wp_validGenericInteger fun valid => ?_
  rw [Scan.wp_ensure]
  refine ⟨fun _ => wp_orFail (fun value _ => ⟨hoffset, hm.weaken (by omega)⟩) ?_, fun _ => ?_⟩
  · exact hm.stop id hoffset (by omega)
  · exact hm.stop id hoffset (by omega)

end

end Inbound

end Bitmagnet.Dht
