import Bitmagnet.Library.Machine

/-!
# The keyed cache of the rate limiters

`KeyedBuckets` of `rate_limit.rs`: a map from addresses to token buckets and beside it the order in which
they were accessed.  Entries that are past their deadline go at the next access, and at capacity the
least recently accessed one goes.

The map is a list of pairs; its order is not used.  A bucket is shared with those who got it, and what
becomes of it there does not concern the cache, so it is of any type and made by `create`.  An `expect`
that fails is `none`.
-/

namespace Bitmagnet.Dht.RateLimit

/-! ## The source -/

/-- `KeyedBucketEntry`. -/
structure KeyedBucketEntry (β : Type) where
  bucket : β
  expiresAt : Nat
  deriving DecidableEq

/-- `KeyedBucketsState`. -/
structure KeyedBucketsState (κ β : Type) where
  entries : List (κ × KeyedBucketEntry β) := []
  /-- oldest at the front, most recently accessed at the back -/
  recency : List κ := []
  deriving DecidableEq

/-- What `KeyedBuckets::new` is given, with what it asserts. -/
structure Policy (β : Type) where
  capacity : Nat
  ttl : Nat
  /-- `TokenBucket::new`, with the interval and the burst of the policy -/
  create : Nat → β
  capacity_pos : 0 < capacity
  ttl_pos : 0 < ttl

variable {κ β : Type} [DecidableEq κ]

namespace KeyedBucketsState

/-- `entries.get`. -/
def get (s : KeyedBucketsState κ β) (key : κ) : Option (KeyedBucketEntry β) := s.entries.lookup key

/-- `remove_expired`. -/
def removeExpired (s : KeyedBucketsState κ β) (now : Nat) : KeyedBucketsState κ β :=
  let entries := s.entries.filter fun entry => now ≤ entry.2.expiresAt
  { entries, recency := s.recency.filter fun key => (entries.lookup key).isSome }

/-- `touch`. -/
def touch (s : KeyedBucketsState κ β) (key : κ) : Option (KeyedBucketsState κ β) :=
  if key ∈ s.recency then some { s with recency := s.recency.erase key ++ [key] } else none

/-- The loop that makes room, over what is left of the order. -/
def evict (capacity : Nat) (entries : List (κ × KeyedBucketEntry β)) :
    List κ → Option (KeyedBucketsState κ β)
  | [] => if entries.length > capacity then none else some { entries, recency := [] }
  | oldest :: rest =>
    if entries.length > capacity then
      evict capacity (entries.filter fun entry => entry.1 ≠ oldest) rest
    else some { entries, recency := oldest :: rest }

/-- `get_at`. -/
def getAt (policy : Policy β) (s : KeyedBucketsState κ β) (access : κ × Nat) :
    Option (β × KeyedBucketsState κ β) :=
  let (key, now) := access
  let s := s.removeExpired now
  match s.get key with
  | some entry => (s.touch key).map fun s => (entry.bucket, s)
  | none =>
    let bucket := policy.create now
    let entries := s.entries.filter (fun entry => entry.1 ≠ key) ++
      [(key, ⟨bucket, now + policy.ttl⟩)]
    (evict policy.capacity entries (s.recency ++ [key])).map fun s => (bucket, s)

end KeyedBucketsState

/-! ## Accesses -/

/-- When a key was last accessed, counted from one; zero for never. -/
def lastAccess (history : List κ) (key : κ) : Nat := history.length - history.reverse.idxOf key

lemma lastAccess_le (history : List κ) (key : κ) : lastAccess history key ≤ history.length :=
  Nat.sub_le ..

lemma lastAccess_concat (history : List κ) (last key : κ) :
    lastAccess (history ++ [last]) key =
      if last = key then history.length + 1 else lastAccess history key := by
  unfold lastAccess
  rw [List.reverse_concat, List.idxOf_cons, List.length_append, List.length_singleton]
  by_cases h : last = key
  · simp [h]
  · have hne : (last == key) = false := by simpa using h
    rw [hne, if_neg h]
    simp

/-! ## The map -/

lemma lookup_filter_key (l : List (κ × KeyedBucketEntry β)) (gone key : κ) :
    (l.filter fun entry => entry.1 ≠ gone).lookup key = if key = gone then none else l.lookup key := by
  induction l with
  | nil => simp
  | cons entry l ih =>
    by_cases hgone : entry.1 = gone
    · rw [List.filter_cons_of_neg (by simp [hgone]), ih, List.lookup_cons]
      split
      · rfl
      · next hkey =>
          have : (key == entry.1) = false := by simpa [hgone] using hkey
          rw [this]
    · rw [List.filter_cons_of_pos (by simp [hgone]), List.lookup_cons, List.lookup_cons, ih]
      cases hkey : key == entry.1 with
      | false => rfl
      | true =>
        have hne : key ≠ gone := by rw [beq_iff_eq.mp hkey]; exact hgone
        simp [hne]

lemma lookup_filter_value {l : List (κ × KeyedBucketEntry β)} (h : (l.map Prod.fst).Nodup)
    (p : KeyedBucketEntry β → Bool) (key : κ) :
    (l.filter fun entry => p entry.2).lookup key = (l.lookup key).filter p := by
  induction l with
  | nil => rfl
  | cons entry l ih =>
    obtain ⟨hnew, hrest⟩ := List.nodup_cons.mp h
    have habsent : l.lookup entry.1 = none := by
      rw [List.lookup_eq_none_iff]
      intro other hother
      have : entry.1 ≠ other.1 := fun heq => hnew (heq ▸ List.mem_map_of_mem hother)
      simpa using this
    have ih := ih hrest
    cases hp : p entry.2 with
    | true =>
      rw [List.filter_cons_of_pos (by simpa using hp), List.lookup_cons, List.lookup_cons, ih]
      cases hkey : key == entry.1 with
      | false => rfl
      | true => exact (Option.filter_some_pos hp).symm
    | false =>
      rw [List.filter_cons_of_neg (by simp [hp]), List.lookup_cons, ih]
      cases hkey : key == entry.1 with
      | false => rfl
      | true =>
        rw [beq_iff_eq.mp hkey, habsent]
        exact (Option.filter_some_neg (by simp [hp])).symm

lemma isSome_lookup {l : List (κ × KeyedBucketEntry β)} {key : κ} :
    (l.lookup key).isSome = true ↔ key ∈ l.map Prod.fst := by
  induction l with
  | nil => simp
  | cons entry l ih =>
    rw [List.lookup_cons, List.map_cons, List.mem_cons]
    cases hkey : key == entry.1 with
    | true => simp [beq_iff_eq.mp hkey]
    | false =>
      have hne : key ≠ entry.1 := by simpa using hkey
      simp [ih, hne]

/-! ## The invariant -/

namespace KeyedBucketsState

/-- The map and the order agree, and the order is that of the accesses. -/
structure Consistent (history : List κ) (s : KeyedBucketsState κ β) : Prop where
  nodup_keys : (s.entries.map Prod.fst).Nodup
  nodup : s.recency.Nodup
  mem_iff : ∀ key, key ∈ s.recency ↔ (s.get key).isSome = true
  ordered : s.recency.Pairwise fun a b => lastAccess history a < lastAccess history b

/-- Between two accesses. -/
structure Invariant (policy : Policy β) (history : List κ) (s : KeyedBucketsState κ β) : Prop
    extends Consistent history s where
  size : s.entries.length ≤ policy.capacity

variable {policy : Policy β} {history : List κ} {s : KeyedBucketsState κ β}

lemma Consistent.length_eq (h : s.Consistent history) : s.entries.length = s.recency.length := by
  have hperm : s.recency.Perm (s.entries.map Prod.fst) :=
    (List.perm_ext_iff_of_nodup h.nodup h.nodup_keys).mpr fun key => by
      rw [h.mem_iff, get, isSome_lookup]
  rw [hperm.length_eq, List.length_map]

lemma Consistent.get_removeExpired (h : s.Consistent history) (now : Nat) (key : κ) :
    (s.removeExpired now).get key = (s.get key).filter (now ≤ ·.expiresAt) :=
  lookup_filter_value h.nodup_keys (fun entry => decide (now ≤ entry.expiresAt)) key

lemma Consistent.removeExpired (h : s.Consistent history) (now : Nat) :
    (s.removeExpired now).Consistent history where
  nodup_keys := h.nodup_keys.sublist (List.filter_sublist.map Prod.fst)
  nodup := h.nodup.filter _
  mem_iff key := by
    have hget := h.get_removeExpired now key
    have hkeep : key ∈ (s.removeExpired now).recency ↔
        key ∈ s.recency ∧ ((s.removeExpired now).get key).isSome = true := List.mem_filter
    rw [hkeep, h.mem_iff, hget]
    cases s.get key <;> simp
  ordered := h.ordered.sublist List.filter_sublist

lemma length_removeExpired (s : KeyedBucketsState κ β) (now : Nat) :
    (s.removeExpired now).entries.length ≤ s.entries.length :=
  List.length_filter_le ..

/-- What was accessed before stays in order, and the last access is behind it. -/
lemma pairwise_concat {l : List κ} {key : κ} (hkey : key ∉ l)
    (h : l.Pairwise fun a b => lastAccess history a < lastAccess history b) :
    (l ++ [key]).Pairwise fun a b =>
      lastAccess (history ++ [key]) a < lastAccess (history ++ [key]) b := by
  have hold : ∀ a ∈ l, lastAccess (history ++ [key]) a = lastAccess history a := by
    intro a ha
    have hne : ¬key = a := fun heq => hkey (heq ▸ ha)
    rw [lastAccess_concat, if_neg hne]
  refine List.pairwise_append.mpr ⟨h.imp_of_mem fun {a b} ha hb hlt => ?_,
    List.pairwise_singleton .., fun a ha b hb => ?_⟩
  · rwa [hold a ha, hold b hb]
  · rw [List.mem_singleton.mp hb, hold a ha, lastAccess_concat, if_pos rfl]
    have := lastAccess_le history a
    omega

/-- A hit moves the key to the back. -/
lemma Consistent.touch (h : s.Consistent history) {key : κ} (hkey : key ∈ s.recency) :
    ({ s with recency := s.recency.erase key ++ [key] } : KeyedBucketsState κ β).Consistent
      (history ++ [key]) where
  nodup_keys := h.nodup_keys
  nodup := by
    refine List.nodup_append.mpr ⟨h.nodup.erase key, List.pairwise_singleton .., ?_⟩
    intro a ha b hb heq
    rw [List.mem_singleton.mp hb] at heq
    exact h.nodup.not_mem_erase (heq ▸ ha)
  mem_iff other := by
    have hmem : other ∈ s.recency.erase key ++ [key] ↔ other ∈ s.recency := by
      rw [List.mem_append, h.nodup.mem_erase_iff, List.mem_singleton]
      by_cases heq : other = key
      · simp [heq, hkey]
      · simp [heq]
    exact hmem.trans (h.mem_iff other)
  ordered := pairwise_concat h.nodup.not_mem_erase (h.ordered.sublist List.erase_sublist)

/-- The state with a new key, before room is made. -/
def inserted (s : KeyedBucketsState κ β) (key : κ) (entry : KeyedBucketEntry β) :
    KeyedBucketsState κ β where
  entries := s.entries.filter (fun entry => entry.1 ≠ key) ++ [(key, entry)]
  recency := s.recency ++ [key]

lemma get_inserted (s : KeyedBucketsState κ β) (key other : κ) (entry : KeyedBucketEntry β) :
    (s.inserted key entry).get other = if other = key then some entry else s.get other := by
  rw [get, inserted, List.lookup_append, lookup_filter_key]
  split
  · next h => simp [h]
  · next h =>
      have hne : (other == key) = false := by simpa using h
      simp [List.lookup_cons, hne, get]

lemma Consistent.inserted (h : s.Consistent history) {key : κ} (hkey : s.get key = none)
    (entry : KeyedBucketEntry β) : (s.inserted key entry).Consistent (history ++ [key]) where
  nodup_keys := by
    rw [KeyedBucketsState.inserted, List.map_append]
    refine List.nodup_append.mpr ⟨h.nodup_keys.sublist (List.filter_sublist.map Prod.fst),
      List.pairwise_singleton .., ?_⟩
    intro a ha b hb heq
    obtain ⟨old, hold, rfl⟩ := List.mem_map.mp ha
    rw [List.map_singleton, List.mem_singleton] at hb
    have := (List.mem_filter.mp hold).2
    simp [heq, hb] at this
  nodup := by
    refine List.nodup_append.mpr ⟨h.nodup, List.pairwise_singleton .., ?_⟩
    intro a ha b hb heq
    rw [List.mem_singleton.mp hb] at heq
    have := (h.mem_iff a).mp ha
    rw [heq, hkey] at this
    cases this
  mem_iff other := by
    rw [get_inserted]
    have hmem : other ∈ s.recency ++ [key] ↔ other ∈ s.recency ∨ other = key := by simp
    refine hmem.trans ?_
    rw [h.mem_iff]
    split
    · next heq => simp [heq]
    · next hne => simp [hne]
  ordered := by
    refine pairwise_concat (fun hmem => ?_) h.ordered
    have := (h.mem_iff key).mp hmem
    rw [hkey] at this
    cases this

lemma length_inserted (h : s.Consistent history) {key : κ} (hkey : s.get key = none)
    (entry : KeyedBucketEntry β) :
    (s.inserted key entry).entries.length = s.entries.length + 1 := by
  rw [(h.inserted hkey entry).length_eq, h.length_eq, inserted, List.length_append,
    List.length_singleton]

/-- The state without the least recently accessed key. -/
def withoutOldest (s : KeyedBucketsState κ β) (oldest : κ) (rest : List κ) :
    KeyedBucketsState κ β where
  entries := s.entries.filter fun entry => entry.1 ≠ oldest
  recency := rest

lemma get_withoutOldest (s : KeyedBucketsState κ β) (oldest key : κ) (rest : List κ) :
    (s.withoutOldest oldest rest).get key = if key = oldest then none else s.get key :=
  lookup_filter_key ..

lemma Consistent.withoutOldest (h : s.Consistent history) {oldest : κ} {rest : List κ}
    (hrecency : s.recency = oldest :: rest) : (s.withoutOldest oldest rest).Consistent history := by
  have hnodup := h.nodup
  have hordered := h.ordered
  rw [hrecency] at hnodup hordered
  obtain ⟨hold, hnodup⟩ := List.nodup_cons.mp hnodup
  refine ⟨h.nodup_keys.sublist (List.filter_sublist.map Prod.fst), hnodup, fun key => ?_,
    (List.pairwise_cons.mp hordered).2⟩
  have hmem := h.mem_iff key
  rw [hrecency, List.mem_cons] at hmem
  rw [get_withoutOldest]
  split
  · next heq => simp [heq, hold, KeyedBucketsState.withoutOldest]
  · next hne => simpa [hne, KeyedBucketsState.withoutOldest] using hmem

lemma length_withoutOldest (h : s.Consistent history) {oldest : κ} {rest : List κ}
    (hrecency : s.recency = oldest :: rest) :
    (s.withoutOldest oldest rest).entries.length + 1 = s.entries.length := by
  rw [(h.withoutOldest hrecency).length_eq, h.length_eq, hrecency, withoutOldest, List.length_cons]

/-- Making room after an insertion: nothing, or the least recently accessed entry goes. -/
lemma evict_spec (h : s.Consistent history) (capacity : Nat)
    (hsize : s.entries.length ≤ capacity + 1) :
    (s.entries.length ≤ capacity ∧ evict capacity s.entries s.recency = some s) ∨
      ∃ oldest rest, s.entries.length = capacity + 1 ∧ s.recency = oldest :: rest ∧
        evict capacity s.entries s.recency = some (s.withoutOldest oldest rest) := by
  have hlen := h.length_eq
  rcases Nat.lt_or_ge capacity s.entries.length with hfull | hroom
  · refine .inr ?_
    have hne : s.recency ≠ [] := by
      intro hnil
      rw [hnil, List.length_nil] at hlen
      omega
    obtain ⟨oldest, rest, hrecency⟩ := List.exists_cons_of_ne_nil hne
    refine ⟨oldest, rest, by omega, hrecency, ?_⟩
    have hafter := length_withoutOldest h hrecency
    have hsmall : ¬(s.withoutOldest oldest rest).entries.length > capacity := by omega
    rw [hrecency, evict, if_pos hfull]
    cases rest with
    | nil => exact if_neg hsmall
    | cons next rest => exact if_neg hsmall
  · refine .inl ⟨hroom, ?_⟩
    have hnot : ¬s.entries.length > capacity := by omega
    cases hrecency : s.recency with
    | nil => rw [evict, if_neg hnot, ← hrecency]
    | cons oldest rest => rw [evict, if_neg hnot, ← hrecency]

/-! ## One access -/

/-- An entry that can be used at that time. -/
def usable (s : KeyedBucketsState κ β) (now : Nat) (key : κ) : Option (KeyedBucketEntry β) :=
  (s.get key).filter (now ≤ ·.expiresAt)

/-- What an access can do. -/
inductive Accessed (policy : Policy β) (s : KeyedBucketsState κ β) (key : κ) (now : Nat) :
    β → KeyedBucketsState κ β → Prop
  | hit {entry} : s.usable now key = some entry →
      Accessed policy s key now entry.bucket
        { s.removeExpired now with
          recency := (s.removeExpired now).recency.erase key ++ [key] }
  | miss : s.usable now key = none → (s.removeExpired now).entries.length < policy.capacity →
      Accessed policy s key now (policy.create now)
        ((s.removeExpired now).inserted key ⟨policy.create now, now + policy.ttl⟩)
  | evict {oldest rest} : s.usable now key = none →
      (s.removeExpired now).entries.length = policy.capacity →
      (s.removeExpired now).recency ++ [key] = oldest :: rest →
      Accessed policy s key now (policy.create now)
        (((s.removeExpired now).inserted key ⟨policy.create now, now + policy.ttl⟩).withoutOldest
          oldest rest)

/-- An access does not fail, and the invariant holds behind it. -/
lemma Invariant.getAt (h : s.Invariant policy history) (key : κ) (now : Nat) :
    ∃ bucket s', getAt policy s (key, now) = some (bucket, s') ∧
      Accessed policy s key now bucket s' ∧ s'.Invariant policy (history ++ [key]) := by
  have ht := h.removeExpired now
  have hget : (s.removeExpired now).get key = s.usable now key := h.get_removeExpired now key
  have hsize : (s.removeExpired now).entries.length ≤ policy.capacity :=
    Nat.le_trans (length_removeExpired s now) h.size
  cases husable : s.usable now key with
  | some entry =>
    have hmem : key ∈ (s.removeExpired now).recency := by
      rw [ht.mem_iff, hget, husable]
      rfl
    refine ⟨entry.bucket, _, ?_, .hit husable, ⟨ht.touch hmem, hsize⟩⟩
    simp only [KeyedBucketsState.getAt, hget, husable, KeyedBucketsState.touch, if_pos hmem,
      Option.map_some]
  | none =>
    rw [husable] at hget
    have hlength := length_inserted ht hget ⟨policy.create now, now + policy.ttl⟩
    have hinserted := ht.inserted hget ⟨policy.create now, now + policy.ttl⟩
    rcases evict_spec hinserted policy.capacity (by omega) with
      ⟨hroom, hevict⟩ | ⟨oldest, rest, hfull, hrecency, hevict⟩
    · refine ⟨policy.create now, _, ?_, .miss husable (by omega), ⟨hinserted, hroom⟩⟩
      simp only [KeyedBucketsState.getAt, hget]
      rw [← Option.map_some, ← hevict]
      rfl
    · have hafter := length_withoutOldest hinserted hrecency
      refine ⟨policy.create now, _, ?_, .evict husable (by omega) hrecency,
        ⟨hinserted.withoutOldest hrecency, by omega⟩⟩
      simp only [KeyedBucketsState.getAt, hget]
      rw [← Option.map_some, ← hevict]
      rfl

variable {now : Nat} {bucket : β} {s' : KeyedBucketsState κ β}

/-- A full cache has something to evict before the new key. -/
lemma Invariant.key_ne_oldest (h : s.Invariant policy history) {key oldest : κ} {rest : List κ}
    (husable : s.usable now key = none)
    (hfull : (s.removeExpired now).entries.length = policy.capacity)
    (hrecency : (s.removeExpired now).recency ++ [key] = oldest :: rest) : key ≠ oldest := by
  have ht := h.removeExpired now
  have hlen := ht.length_eq
  have hpos := policy.capacity_pos
  cases hr : (s.removeExpired now).recency with
  | nil => rw [hr, List.length_nil] at hlen; omega
  | cons first others =>
    rw [hr, List.cons_append, List.cons.injEq] at hrecency
    have hsome : ((s.removeExpired now).get oldest).isSome = true := by
      rw [← ht.mem_iff, hr, hrecency.1]
      exact List.mem_cons_self
    rintro rfl
    rw [h.get_removeExpired] at hsome
    rw [usable] at husable
    rw [husable] at hsome
    cases hsome

lemma get_touched (s : KeyedBucketsState κ β) (recency : List κ) (key : κ) :
    ({ s with recency } : KeyedBucketsState κ β).get key = s.get key := rfl

/-- The key is in the cache behind an access: as it was, if it could be used, and otherwise anew. -/
lemma Accessed.key {key : κ} (h : s.Invariant policy history)
    (hacc : Accessed policy s key now bucket s') :
    (∀ entry, s.usable now key = some entry → bucket = entry.bucket ∧ s'.get key = some entry) ∧
      (s.usable now key = none →
        bucket = policy.create now ∧ s'.get key = some ⟨bucket, now + policy.ttl⟩) := by
  cases hacc with
  | @hit entry husable =>
    refine ⟨fun entry' h' => ?_, fun hnone => by rw [husable] at hnone; cases hnone⟩
    obtain rfl : entry = entry' := Option.some.inj (husable.symm.trans h')
    exact ⟨rfl, (h.get_removeExpired now key).trans husable⟩
  | miss husable _ =>
    refine ⟨fun entry' h' => (by rw [husable] at h'; cases h'), fun _ => ⟨rfl, ?_⟩⟩
    rw [get_inserted, if_pos rfl]
  | @evict oldest rest husable hfull hrecency =>
    refine ⟨fun entry' h' => (by rw [husable] at h'; cases h'), fun _ => ⟨rfl, ?_⟩⟩
    have hne : key ≠ oldest := h.key_ne_oldest husable hfull hrecency
    rw [get_withoutOldest, if_neg hne, get_inserted, if_pos rfl]

/-- Every other entry behind an access was there before it and could be used. -/
lemma Accessed.others {key other : κ} (h : s.Invariant policy history)
    (hacc : Accessed policy s key now bucket s') (hother : other ≠ key) {entry : KeyedBucketEntry β}
    (hget : s'.get other = some entry) : s.usable now other = some entry := by
  have hbefore : (s.removeExpired now).get other = s.usable now other := h.get_removeExpired now other
  rw [← hbefore]
  cases hacc with
  | hit _ => exact hget
  | miss _ _ => rwa [get_inserted, if_neg hother] at hget
  | evict _ _ _ =>
    rw [get_withoutOldest] at hget
    split at hget
    · cases hget
    · rwa [get_inserted, if_neg hother] at hget

/-- An entry that could be used and goes is the least recently accessed one of a full cache. -/
lemma Accessed.evicted {key gone : κ} (h : s.Invariant policy history)
    (hacc : Accessed policy s key now bucket s') (hinv : s'.Invariant policy (history ++ [key]))
    (husable : (s.usable now gone).isSome = true) (hgone : s'.get gone = none) :
    s.usable now key = none ∧ (s.removeExpired now).entries.length = policy.capacity ∧
      ∀ other, (s'.get other).isSome = true →
        lastAccess (history ++ [key]) gone < lastAccess (history ++ [key]) other := by
  have hbefore : (s.removeExpired now).get gone = s.usable now gone := h.get_removeExpired now gone
  cases hacc with
  | hit _ =>
    rw [get_touched, hbefore] at hgone
    rw [hgone] at husable
    cases husable
  | miss hkey _ =>
    rw [get_inserted, hbefore] at hgone
    split at hgone
    · cases hgone
    · rw [hgone] at husable
      cases husable
  | @evict oldest rest hkey hfull hrecency =>
    rw [get_withoutOldest, get_inserted, hbefore] at hgone
    have heq : gone = oldest := by
      by_contra hne
      rw [if_neg hne] at hgone
      split at hgone
      · cases hgone
      · rw [hgone] at husable
        cases husable
    refine ⟨hkey, hfull, fun other hother => ?_⟩
    have hmem : other ∈ rest := (hinv.mem_iff other).mpr hother
    have hordered := ((h.removeExpired now).inserted
      ((h.get_removeExpired now key).trans hkey) ⟨policy.create now, now + policy.ttl⟩).ordered
    rw [inserted, hrecency] at hordered
    rw [heq]
    exact (List.pairwise_cons.mp hordered).1 other hmem

/-! ## Every run -/

lemma Invariant.run (accesses : List (κ × Nat)) (h : s.Invariant policy history) :
    ∃ buckets s', Machine.run (KeyedBucketsState.getAt policy) s accesses = some (buckets, s') ∧
      s'.Invariant policy (history ++ accesses.map Prod.fst) := by
  induction accesses generalizing s history with
  | nil => exact ⟨[], s, rfl, by simpa using h⟩
  | cons access accesses ih =>
    obtain ⟨bucket, next, hget, _, hnext⟩ := h.getAt access.1 access.2
    obtain ⟨buckets, s', hrun, hs'⟩ := ih hnext
    refine ⟨bucket :: buckets, s', ?_, by simpa using hs'⟩
    rw [Machine.run_cons, hget, Option.bind_some, hrun, Option.map_some]

lemma Invariant.empty (policy : Policy β) :
    ({} : KeyedBucketsState κ β).Invariant policy ([] : List κ) where
  nodup_keys := List.nodup_nil
  nodup := List.nodup_nil
  mem_iff := by simp [get]
  ordered := .nil
  size := Nat.zero_le _

end KeyedBucketsState

end Bitmagnet.Dht.RateLimit
