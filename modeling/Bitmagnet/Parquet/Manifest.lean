import Mathlib.Algebra.Group.Nat.Defs
import Mathlib.Data.List.Basic
import Mathlib.Order.Basic

/-!
# Segment manifests

The model of `manifest.rs`: the list of live segments over a base, its
validation, and the compare-and-swap that replaces it.  The text format and the
file system calls around the swap are left out; the swap runs under an exclusive
lock and ends in a rename, so it is one step here.  Versions and `mver` are `u64`
in the source and natural numbers here.

`Manifest.Valid` states what validation accepts: the segments tile the time from
the base's cut on, with positive windows and increasing versions.
-/

namespace Bitmagnet.Parquet

/-- `BaseEntry`. -/
structure BaseEntry where
  version : Nat
  cut : Int
deriving DecidableEq

/-- `SegmentEntry`: the window `(from, to]` of one sealed segment. -/
structure SegmentEntry where
  version : Nat
  fromCut : Int
  toCut : Int
  tier : Nat
deriving DecidableEq

/-- `Manifest`. -/
structure Manifest where
  mver : Nat
  base : BaseEntry
  segments : List SegmentEntry
deriving DecidableEq

/-- The reasons of `validate`, each with the segment's index. -/
inductive ManifestError
  | notContiguous (idx : Nat) (fromCut expectedFrom : Int)
  | nonPositiveWindow (idx : Nat) (fromCut toCut : Int)
  | versionNotGreater (idx version prevVersion : Nat)
deriving DecidableEq

namespace Manifest

/-- The loop of `validate`. -/
def validateFrom : Nat → Int → Nat → List SegmentEntry → Except ManifestError Unit
  | _, _, _, [] => .ok ()
  | idx, expectedFrom, prevVersion, s :: rest =>
    if s.fromCut ≠ expectedFrom then .error (.notContiguous idx s.fromCut expectedFrom)
    else if s.toCut ≤ s.fromCut then .error (.nonPositiveWindow idx s.fromCut s.toCut)
    else if s.version ≤ prevVersion then .error (.versionNotGreater idx s.version prevVersion)
    else validateFrom (idx + 1) s.toCut s.version rest

/-- `Manifest::validate`. -/
def validate (m : Manifest) : Except ManifestError Unit :=
  validateFrom 0 m.base.cut m.base.version m.segments

/-- `Manifest::new`. -/
def new (mver : Nat) (base : BaseEntry) (segments : List SegmentEntry) :
    Except ManifestError Manifest :=
  match validate ⟨mver, base, segments⟩ with
  | .ok () => .ok ⟨mver, base, segments⟩
  | .error e => .error e

/-- `Manifest::cut`. -/
def cut (m : Manifest) : Int := (m.segments.getLast?.map SegmentEntry.toCut).getD m.base.cut

/-! ## What validation accepts -/

/-- Segments that tile the time after `cut`, under versions above `version`. -/
def Tiles : Int → Nat → List SegmentEntry → Prop
  | _, _, [] => True
  | cut, version, s :: rest =>
    s.fromCut = cut ∧ s.fromCut < s.toCut ∧ version < s.version ∧ Tiles s.toCut s.version rest

/-- The manifest passes validation. -/
def Valid (m : Manifest) : Prop := Tiles m.base.cut m.base.version m.segments

variable {cut : Int} {segments : List SegmentEntry} {version : Nat} {m : Manifest}

lemma validateFrom_eq_ok {idx : Nat} :
    validateFrom idx cut version segments = .ok () ↔ Tiles cut version segments := by
  induction segments generalizing idx cut version with
  | nil => simp [validateFrom, Tiles]
  | cons s rest ih =>
    simp only [validateFrom, Tiles]
    by_cases hfrom : s.fromCut = cut
    · subst hfrom
      by_cases hwindow : s.toCut ≤ s.fromCut
      · have : ¬ s.fromCut < s.toCut := by omega
        simp [hwindow, this]
      by_cases hversion : s.version ≤ version
      · have : ¬ version < s.version := by omega
        simp [hwindow, hversion, this]
      · have hlt : s.fromCut < s.toCut := by omega
        have hvlt : version < s.version := by omega
        simp [hwindow, hversion, hlt, hvlt, ih]
    · simp [hfrom]

/-- **Validation is `Valid`.** -/
lemma validate_eq_ok : m.validate = .ok () ↔ m.Valid := validateFrom_eq_ok

lemma new_eq_ok {mver : Nat} {base : BaseEntry} :
    new mver base segments = .ok m ↔ m = ⟨mver, base, segments⟩ ∧ m.Valid := by
  unfold new
  constructor
  · intro h
    split at h
    · rename_i hok
      cases h
      exact ⟨rfl, validate_eq_ok.mp hok⟩
    · cases h
  · rintro ⟨rfl, hvalid⟩
    rw [validate_eq_ok.mpr hvalid]

/-! ## Cuts and coverage -/

/-- The end of a tiling that starts at `cut`. -/
def tilesEnd (cut : Int) (segments : List SegmentEntry) : Int :=
  (segments.getLast?.map SegmentEntry.toCut).getD cut

@[simp] lemma tilesEnd_nil (cut : Int) : tilesEnd cut [] = cut := rfl

lemma tilesEnd_cons (cut : Int) (s : SegmentEntry) (rest : List SegmentEntry) :
    tilesEnd cut (s :: rest) = tilesEnd s.toCut rest := by
  unfold tilesEnd
  cases rest with
  | nil => rfl
  | cons r rs =>
    rw [List.getLast?_cons_cons]
    obtain ⟨last, hlast⟩ : ∃ last, (r :: rs).getLast? = some last :=
      ⟨_, List.getLast?_eq_getLast_of_ne_nil (by simp)⟩
    simp [hlast]

lemma tilesEnd_append (cut : Int) (xs ys : List SegmentEntry) :
    tilesEnd cut (xs ++ ys) = tilesEnd (tilesEnd cut xs) ys := by
  induction xs generalizing cut with
  | nil => rfl
  | cons x xs ih => rw [List.cons_append, tilesEnd_cons, ih, tilesEnd_cons]

lemma cut_eq (m : Manifest) : m.cut = tilesEnd m.base.cut m.segments := rfl

lemma Tiles.le_end (h : Tiles cut version segments) : cut ≤ tilesEnd cut segments := by
  induction segments generalizing cut version with
  | nil => simp
  | cons s rest ih =>
    obtain ⟨hfrom, hlt, _, hrest⟩ := h
    rw [tilesEnd_cons]
    have := ih hrest
    omega

/-- Every segment of a tiling lies between its start and its end. -/
lemma Tiles.bounds (h : Tiles cut version segments) {s : SegmentEntry} (hs : s ∈ segments) :
    cut ≤ s.fromCut ∧ s.fromCut < s.toCut ∧ s.toCut ≤ tilesEnd cut segments := by
  induction segments generalizing cut version with
  | nil => cases hs
  | cons head rest ih =>
    obtain ⟨hfrom, hlt, _, hrest⟩ := h
    rw [tilesEnd_cons]
    rcases List.mem_cons.mp hs with rfl | hs
    · exact ⟨by omega, hlt, hrest.le_end⟩
    · have := ih hrest hs
      omega

lemma Tiles.append_right {xs ys : List SegmentEntry} (h : Tiles cut version (xs ++ ys)) :
    ∃ version', Tiles (tilesEnd cut xs) version' ys := by
  induction xs generalizing cut version with
  | nil => exact ⟨version, h⟩
  | cons x xs ih =>
    obtain ⟨_, _, _, hrest⟩ := h
    rw [tilesEnd_cons]
    exact ih hrest

/-- Every instant of the window is under the base or in a listed segment. -/
def Covers (m : Manifest) (window : SegmentEntry) : Prop :=
  ∀ t : Int, window.fromCut < t → t ≤ window.toCut →
    t ≤ m.base.cut ∨ ∃ s ∈ m.segments, s.fromCut < t ∧ t ≤ s.toCut

lemma Tiles.exists_of_le (h : Tiles cut version segments) {t : Int}
    (hle : t ≤ tilesEnd cut segments) : t ≤ cut ∨ ∃ s ∈ segments, s.fromCut < t ∧ t ≤ s.toCut := by
  induction segments generalizing cut version with
  | nil => exact Or.inl hle
  | cons s rest ih =>
    obtain ⟨hfrom, hlt, _, hrest⟩ := h
    rw [tilesEnd_cons] at hle
    rcases ih hrest hle with hle | ⟨r, hr, hwindow⟩
    · by_cases hcut : t ≤ cut
      · exact Or.inl hcut
      · exact Or.inr ⟨s, by simp, by omega, hle⟩
    · exact Or.inr ⟨r, by simp [hr], hwindow⟩

/-- A valid manifest covers every window that ends by its cut. -/
lemma Valid.covers (h : m.Valid) {window : SegmentEntry} (hle : window.toCut ≤ m.cut) :
    m.Covers window :=
  fun _ _ ht => Tiles.exists_of_le h (Int.le_trans ht hle)

lemma Valid.base_cut_le (h : m.Valid) : m.base.cut ≤ m.cut := Tiles.le_end h

end Manifest

/-! ## Compare-and-swap -/

/-- The reasons of `write_manifest_cas`; only the first is retryable. -/
inductive CasError
  | mverChanged (expected actual : Option Nat)
  | invalid (error : ManifestError)
  | mverNotBumped (expected : Option Nat) (requiredNext got : Nat)
deriving DecidableEq

/-- `write_manifest_cas`: the manifest it leaves on disk. -/
def writeManifestCas (disk : Option Manifest) (expectedMver : Option Nat) (next : Manifest) :
    Except CasError Manifest :=
  match next.validate with
  | .error e => .error (.invalid e)
  | .ok () =>
    if disk.map Manifest.mver ≠ expectedMver then
      .error (.mverChanged expectedMver (disk.map Manifest.mver))
    else if next.mver ≠ expectedMver.getD 0 + 1 then
      .error (.mverNotBumped expectedMver (expectedMver.getD 0 + 1) next.mver)
    else .ok next

/-- What a successful swap has checked. -/
lemma writeManifestCas_eq_ok {disk : Option Manifest} {expectedMver : Option Nat}
    {next written : Manifest} :
    writeManifestCas disk expectedMver next = .ok written ↔
      written = next ∧ next.Valid ∧ disk.map Manifest.mver = expectedMver ∧
        next.mver = expectedMver.getD 0 + 1 := by
  unfold writeManifestCas
  rw [← Manifest.validate_eq_ok]
  cases hvalid : next.validate with
  | error e => simp
  | ok u =>
    by_cases hmver : disk.map Manifest.mver = expectedMver
    · by_cases hnext : next.mver = expectedMver.getD 0 + 1
      · simp [hmver, hnext, eq_comm]
      · simp [hmver, hnext]
    · simp [hmver]

end Bitmagnet.Parquet
