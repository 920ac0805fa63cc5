import Mathlib.Data.List.Dedup
import Mathlib.Data.List.Perm.Basic
import Mathlib.Data.String.Basic

/-!
# The effective hint

`effective_hint` and `content_ambiguity` of `load.rs`.  The classifier's hint is the explicit one,
or is taken from the associations a torrent already has: the first that can be reused, and for a
torrent without a file list the type of the first that has no source.  The associations come from
the database in no particular order; `content_ambiguity` refuses the torrents for which that would
matter.

The episodes of a hint are moved about as a whole, and are of any type with a default.
-/

namespace Bitmagnet.Processor.Hints

/-! ## The source -/

/-- `HintAttributes`. -/
structure HintAttributes (Episodes : Type) where
  episodes : Episodes
  languages : List String := []
  videoResolution : Option String := none
  videoSource : Option String := none
  videoCodec : Option String := none
  video3d : Option String := none
  videoModifier : Option String := none
  releaseGroup : Option String := none
  deriving DecidableEq

/-- `CurrentHint`, a decoded row of `torrent_hints`. -/
structure CurrentHint (Episodes : Type) where
  contentType : String
  contentSource : Option String
  contentId : Option String
  attributes : HintAttributes Episodes
  deriving DecidableEq

/-- `InputHint`. -/
structure InputHint (Episodes : Type) extends HintAttributes Episodes where
  contentType : String := ""
  contentSource : String := ""
  contentId : String := ""
  deriving DecidableEq

/-- `CurrentContent`, an association of `torrent_contents`. -/
structure CurrentContent where
  id : String
  contentType : Option String
  contentSource : Option String
  contentId : Option String
  deriving DecidableEq

/-- `ContentAmbiguity`. -/
inductive ContentAmbiguity
  | reuse
  | preservedType
  deriving DecidableEq

variable {Episodes : Type}

/-- `InputHint::default`. -/
def InputHint.empty [Inhabited Episodes] : InputHint Episodes := { episodes := default }

/-- `CurrentHint::into_input`. -/
def CurrentHint.intoInput (hint : CurrentHint Episodes) : Option (InputHint Episodes) :=
  if hint.contentType = "" then none
  else
    some
      { hint.attributes with
        contentType := hint.contentType
        contentSource := hint.contentSource.getD ""
        contentId := hint.contentId.getD "" }

namespace CurrentContent

/-- `is_reuse_candidate`. -/
def isReuseCandidate (content : CurrentContent) (explicitType : Option String) : Bool :=
  content.contentType.isSome && content.contentSource.isSome &&
    match explicitType with
    | none => true
    | some contentType => content.contentType = some contentType

/-- `reused_into`. -/
def reusedInto [Inhabited Episodes] (content : CurrentContent)
    (explicit : Option (InputHint Episodes)) : InputHint Episodes :=
  { explicit.getD .empty with
    contentType := content.contentType.getD ""
    contentSource := content.contentSource.getD ""
    contentId := content.contentId.getD "" }

/-- The type that an association without a source preserves. -/
def preservedType (content : CurrentContent) : Option String :=
  if content.contentSource = none then content.contentType else none

end CurrentContent

/-- `content_ambiguity`. -/
def contentAmbiguity (explicit : Option (CurrentHint Episodes)) (existing : List CurrentContent)
    (allowContentReuse hasStoredFileList : Bool) : Option ContentAmbiguity :=
  if explicit.any (·.contentSource.isSome) then none
  else
    let explicitType := explicit.map (·.contentType)
    let reusable :=
      if allowContentReuse then (existing.filter (·.isReuseCandidate explicitType)).length else 0
    if reusable > 1 then some .reuse
    else if reusable = 0 ∧ explicit.isNone ∧ hasStoredFileList = false ∧
        (existing.filterMap (·.preservedType)).dedup.length > 1 then some .preservedType
    else none

/-- `effective_hint`. -/
def effectiveHint [Inhabited Episodes] (explicit : Option (CurrentHint Episodes))
    (existing : List CurrentContent) (allowContentReuse hasStoredFileList : Bool) : Option (InputHint Episodes) :=
  let explicit := explicit.bind (·.intoInput)
  if explicit.any (·.contentSource ≠ "") then explicit
  else
    let explicitType := explicit.map (·.contentType)
    let reused := existing.find? fun content =>
      allowContentReuse && content.isReuseCandidate explicitType
    let resolved := match reused with
      | some content => some (content.reusedInto explicit)
      | none => explicit
    if resolved.isSome || hasStoredFileList then resolved
    else
      existing.findSome? fun content =>
        content.preservedType.map fun contentType =>
          { InputHint.empty with contentType, contentSource := "", contentId := "" }

/-! ## Lists in any order -/

section

variable {α β : Type} {l l' : List α}

/-- One candidate at most is found in any order. -/
lemma find?_perm {p : α → Bool} (h : l.Perm l') (hone : (l.filter p).length ≤ 1) :
    l.find? p = l'.find? p := by
  have hfilter := h.filter p
  rw [← List.head?_filter, ← List.head?_filter]
  cases hl : l.filter p with
  | nil =>
    rw [hl] at hfilter
    rw [hfilter.nil_eq]
  | cons a rest =>
    obtain rfl : rest = [] := by
      rw [hl] at hone
      exact List.length_eq_zero_iff.mp (by simpa using hone)
    rw [hl] at hfilter
    rw [List.singleton_perm.mp hfilter]

/-- So is one of equal values. -/
lemma findSome?_perm [DecidableEq β] {f : α → Option β} (h : l.Perm l')
    (hone : (l.filterMap f).dedup.length ≤ 1) : l.findSome? f = l'.findSome? f := by
  have hmap := h.filterMap f
  rw [← List.head?_filterMap, ← List.head?_filterMap]
  cases hl : l.filterMap f with
  | nil =>
    rw [hl] at hmap
    rw [hmap.nil_eq]
  | cons a rest =>
    rw [hl] at hmap hone
    have hall : ∀ b ∈ a :: rest, b = a := by
      intro b hb
      have hb' : b ∈ (a :: rest).dedup := List.mem_dedup.mpr hb
      have ha' : a ∈ (a :: rest).dedup := List.mem_dedup.mpr List.mem_cons_self
      obtain ⟨c, hc⟩ := List.length_eq_one_iff.mp
        (Nat.le_antisymm hone (List.length_pos_of_mem ha'))
      rw [hc, List.mem_singleton] at hb' ha'
      rw [hb', ha']
    cases hl' : l'.filterMap f with
    | nil => rw [hl'] at hmap; exact absurd hmap.length_eq (by simp)
    | cons b rest' =>
      rw [hl'] at hmap
      have hb : b = a := hall b (hmap.mem_iff.mpr List.mem_cons_self)
      rw [hb]
      rfl

end

/-! ## The order of the associations -/

/-- What a hint without a source leaves when nothing is ambiguous: one association to reuse at
most, and if there is none, one type to preserve at most. -/
lemma clear_of_contentAmbiguity {explicit : Option (CurrentHint Episodes)}
    {existing : List CurrentContent} {allowContentReuse hasStoredFileList : Bool}
    (hsource : explicit.any (·.contentSource.isSome) = false)
    (hclear : contentAmbiguity explicit existing allowContentReuse hasStoredFileList = none) :
    (existing.filter fun content => allowContentReuse &&
        content.isReuseCandidate (explicit.map (·.contentType))).length ≤ 1 ∧
      (existing.find? (fun content => allowContentReuse &&
          content.isReuseCandidate (explicit.map (·.contentType))) = none →
        explicit = none → hasStoredFileList = false →
        (existing.filterMap (·.preservedType)).dedup.length ≤ 1) := by
  have hcount : (existing.filter fun content => allowContentReuse &&
      content.isReuseCandidate (explicit.map (·.contentType))).length =
      if allowContentReuse then
        (existing.filter (·.isReuseCandidate (explicit.map (·.contentType)))).length else 0 := by
    cases allowContentReuse <;> simp
  simp only [contentAmbiguity, hsource, Bool.false_eq_true, if_false] at hclear
  rw [← hcount] at hclear
  split at hclear
  · cases hclear
  · next hmany =>
      refine ⟨by omega, fun hfind hnone hstored => ?_⟩
      split at hclear
      · cases hclear
      · next hpreserved =>
          have hzero : (existing.filter fun content => allowContentReuse &&
              content.isReuseCandidate (explicit.map (·.contentType))).length = 0 := by
            rw [List.length_eq_zero_iff, List.filter_eq_nil_iff]
            exact List.find?_eq_none.mp hfind
          by_contra hlong
          exact hpreserved ⟨hzero, by rw [hnone]; rfl, hstored, by omega⟩

/-- **The effective hint does not depend on the order of the associations**, where
`content_ambiguity` finds nothing ambiguous. -/
theorem effectiveHint_perm [Inhabited Episodes] (explicit : Option (CurrentHint Episodes))
    (hexplicit : ∀ hint, explicit = some hint →
      hint.contentType ≠ "" ∧ hint.contentSource ≠ some "")
    {existing existing' : List CurrentContent} (hperm : existing.Perm existing')
    (allowContentReuse hasStoredFileList : Bool)
    (hclear : contentAmbiguity explicit existing allowContentReuse hasStoredFileList = none) :
    effectiveHint explicit existing allowContentReuse hasStoredFileList =
      effectiveHint explicit existing' allowContentReuse hasStoredFileList := by
  cases explicit with
  | none =>
    obtain ⟨hone, hpreserved⟩ := clear_of_contentAmbiguity rfl hclear
    rw [Option.map_none] at hone hpreserved
    simp only [effectiveHint, Option.bind_none, Option.any_none, Bool.false_eq_true, if_false,
      Option.map_none]
    rw [← find?_perm hperm hone]
    cases hreused : existing.find? fun content =>
        allowContentReuse && content.isReuseCandidate none with
    | some content => rfl
    | none =>
      cases hasStoredFileList with
      | true => rfl
      | false =>
        simp only [Option.isSome_none, Bool.or_false, Bool.false_eq_true, if_false]
        have := findSome?_perm hperm (hpreserved hreused rfl rfl)
        have hmap := congrArg (Option.map fun contentType =>
          ({ InputHint.empty with contentType, contentSource := "", contentId := "" } :
            InputHint Episodes)) this
        rw [List.map_findSome?, List.map_findSome?] at hmap
        exact hmap
  | some hint =>
    obtain ⟨htype, hempty⟩ := hexplicit hint rfl
    obtain ⟨input, hinput, hinputType, hinputSource⟩ : ∃ input, hint.intoInput = some input ∧
        input.contentType = hint.contentType ∧ input.contentSource = hint.contentSource.getD "" :=
      ⟨_, if_neg htype, rfl, rfl⟩
    simp only [effectiveHint, Option.bind_some, hinput, Option.any_some, Option.map_some,
      hinputType, hinputSource]
    cases hsource : hint.contentSource with
    | some source =>
      have hne : source ≠ "" := fun heq => hempty (by rw [hsource, heq])
      simp [hne]
    | none =>
      have hnone : (some hint).any (·.contentSource.isSome) = false := by simp [hsource]
      obtain ⟨hone, _⟩ := clear_of_contentAmbiguity hnone hclear
      rw [Option.map_some] at hone
      rw [← find?_perm hperm hone]
      cases existing.find? fun content =>
        allowContentReuse && content.isReuseCandidate (some hint.contentType) <;> rfl

/-- A hint without a source, one association of its type to reuse and one of another type. -/
theorem effectiveHint_perm_reused :
    let hint : CurrentHint Unit := ⟨"movie", none, none, { episodes := () }⟩
    let movie : CurrentContent := ⟨"a", some "movie", some "tmdb", some "603"⟩
    let comic : CurrentContent := ⟨"b", some "comic", none, none⟩
    contentAmbiguity (some hint) [movie, comic] true false = none ∧
      effectiveHint (some hint) [movie, comic] true false =
        effectiveHint (some hint) [comic, movie] true false := by
  intro hint movie comic
  exact ⟨by decide, effectiveHint_perm (some hint)
    (fun other h => by cases h; exact ⟨by decide, by decide⟩) (.swap comic movie []) true false
    (by decide)⟩

end Bitmagnet.Processor.Hints
