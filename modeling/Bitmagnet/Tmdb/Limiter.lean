import Mathlib.Data.List.Basic
import Mathlib.Tactic.Ring

/-!
# The rate limiter in front of TMDB

`RateLimiter` of `bitmagnet-tmdb`: a bucket of `burst` tokens, one more every `interval`, kept as one
instant.  A call of `reserve` holds the lock from its first access to its last, so that calls from any
number of threads are a sequence of calls; the clocks they read need not be in that sequence's order.

Durations and instants are in nanoseconds, instants from the earliest that can be represented, before
which `checked_sub` has nothing.  The grants are what is limited: the instants at which callers go on.
-/

namespace Bitmagnet.Tmdb

/-- `RateLimiter`. -/
structure RateLimiter where
  interval : Nat
  burst : Nat
  nextEmission : Option Nat
  deriving DecidableEq

namespace RateLimiter

/-- `RateLimiter::new`. -/
def new (interval burst : Nat) : RateLimiter := ⟨interval, max burst 1, none⟩

/-- `Instant::checked_sub`. -/
def checkedSub (instant duration : Nat) : Option Nat :=
  if duration ≤ instant then some (instant - duration) else none

/-- `reserve`: the wait. -/
def reserve (limiter : RateLimiter) (now : Nat) : Nat × RateLimiter :=
  if limiter.interval = 0 then (0, limiter)
  else
    let tolerance := limiter.interval * (limiter.burst - 1)
    let arrival := max (limiter.nextEmission.getD now) now
    let wait := match checkedSub arrival tolerance with
      | some allowedAt => allowedAt - now
      | none => 0
    (wait, { limiter with nextEmission := some (arrival + limiter.interval) })

/-- The waits of a sequence of calls. -/
def waits (limiter : RateLimiter) : List Nat → List Nat
  | [] => []
  | now :: nows => (limiter.reserve now).1 :: (limiter.reserve now).2.waits nows

/-- The instants at which the callers go on. -/
def grants (limiter : RateLimiter) (nows : List Nat) : List Nat :=
  List.zipWith (· + ·) nows (limiter.waits nows)

end RateLimiter

/-! ## The rate -/

/-- Any `n` grants in order span `n - burst` intervals. -/
def WithinRate (interval burst : Nat) (grants : List Nat) : Prop :=
  ∀ (chosen : List Nat) (first last : Nat), chosen.Sublist grants → chosen.head? = some first →
    chosen.getLast? = some last → ((chosen.length : Int) - burst) * interval ≤ (last : Int) - first

/-- Where the ends of a choice stand: with at least the rest of it between them. -/
lemma exists_indices_of_sublist {α : Type} {chosen l : List α} {first last : α}
    (h : chosen.Sublist l) (hfirst : chosen.head? = some first) (hlast : chosen.getLast? = some last) :
    ∃ i j, l[i]? = some first ∧ l[j]? = some last ∧ i + chosen.length ≤ j + 1 := by
  induction h generalizing first with
  | slnil => cases hfirst
  | cons a _ ih =>
    obtain ⟨i, j, hi, hj, hij⟩ := ih hfirst hlast
    exact ⟨i + 1, j + 1, by simpa using hi, by simpa using hj, by omega⟩
  | @cons_cons rest l a hsub ih =>
    obtain rfl : a = first := by simpa using hfirst
    cases rest with
    | nil =>
      obtain rfl : a = last := by simpa using hlast
      exact ⟨0, 0, rfl, rfl, by simp⟩
    | cons b rest =>
      rw [List.getLast?_cons_cons] at hlast
      obtain ⟨i, j, _, hj, hij⟩ := ih (show (b :: rest).head? = some b from rfl) hlast
      exact ⟨0, j + 1, rfl, by simpa using hj, by simp at hij ⊢; omega⟩

/-- The same between every two grants, by their places. -/
def Spaced (interval burst : Nat) (grants : List Nat) : Prop :=
  ∀ (i j a b : Nat), i ≤ j → grants[i]? = some a → grants[j]? = some b →
    ((j : Int) - i + 1 - burst) * interval ≤ (b : Int) - a

lemma Spaced.withinRate {interval burst : Nat} {grants : List Nat}
    (h : Spaced interval burst grants) : WithinRate interval burst grants := by
  intro chosen first last hsub hfirst hlast
  obtain ⟨i, j, hi, hj, hij⟩ := exists_indices_of_sublist hsub hfirst hlast
  have hpos : 1 ≤ chosen.length := by
    cases chosen with
    | nil => cases hfirst
    | cons _ _ => simp
  have hspan := h i j first last (by omega) hi hj
  have hmore : ((chosen.length : Int) - burst) * interval ≤
      ((j : Int) - i + 1 - burst) * interval :=
    Int.mul_le_mul_of_nonneg_right (by omega) (by omega)
  omega

/-- What the rate says about the last grant. -/
lemma WithinRate.last {interval burst : Nat} {grants : List Nat} {last : Nat}
    (h : WithinRate interval burst (grants ++ [last])) {i a : Nat} (ha : grants[i]? = some a) :
    ((grants.length : Int) - i + 1 - burst) * interval ≤ (last : Int) - a := by
  obtain ⟨hi, rfl⟩ := List.getElem?_eq_some_iff.mp ha
  have hrate := h (grants.drop i ++ [last]) grants[i] last
    ((List.drop_sublist i grants).append_right _) (by simp [List.head?_drop, hi]) (by simp)
  have hlength : ((grants.drop i ++ [last]).length : Int) = (grants.length : Int) - i + 1 := by
    rw [List.length_append, List.length_drop, List.length_singleton]
    omega
  rwa [hlength] at hrate

/-! ## The reservation clock -/

namespace RateLimiter

/-- The clock is the latest instant that a grant and the intervals since lead to. -/
structure Clock (interval burst : Nat) (grants : List Nat) (limiter : RateLimiter) : Prop where
  interval_eq : limiter.interval = interval
  burst_eq : limiter.burst = burst
  start : limiter.nextEmission = none → grants = []
  ahead : ∀ e, limiter.nextEmission = some e → ∀ i a : Nat, grants[i]? = some a →
    (a : Int) + (grants.length - i) * interval ≤ e
  reached : ∀ e, limiter.nextEmission = some e → ∃ i a : Nat, grants[i]? = some a ∧
    (a : Int) + (grants.length - i) * interval = e

variable {interval burst : Nat} {grants : List Nat} {limiter : RateLimiter}

/-- The arrival of a call: the clock, or the call itself. -/
def arrival (limiter : RateLimiter) (now : Nat) : Nat := max (limiter.nextEmission.getD now) now

lemma reserve_eq (h : limiter.interval ≠ 0) (now : Nat) :
    limiter.reserve now =
      (limiter.arrival now - limiter.interval * (limiter.burst - 1) - now,
        { limiter with nextEmission := some (limiter.arrival now + limiter.interval) }) := by
  rw [reserve, if_neg h]
  dsimp only [arrival, checkedSub]
  split
  · next allowedAt hallowed =>
      split at hallowed
      · cases hallowed; rfl
      · cases hallowed
  · next hnone =>
      split at hnone
      · cases hnone
      · rw [Nat.sub_eq_zero_of_le (by omega)]

/-- When a caller goes on: at once, or so long before its arrival as the burst allows. -/
lemma grant_eq (h : limiter.interval ≠ 0) (now : Nat) :
    now + (limiter.reserve now).1 =
      max now (limiter.arrival now - limiter.interval * (limiter.burst - 1)) := by
  rw [reserve_eq h]
  omega

lemma Clock.arrival_eq (h : limiter.Clock interval burst grants) (now : Nat) :
    (limiter.arrival now = now ∧
        ∀ i a : Nat, grants[i]? = some a → (a : Int) + (grants.length - i) * interval ≤ now) ∨
      now < limiter.arrival now ∧ limiter.nextEmission = some (limiter.arrival now) := by
  cases hnext : limiter.nextEmission with
  | none =>
    refine .inl ⟨by simp [arrival, hnext], ?_⟩
    rw [h.start hnext]
    simp
  | some e =>
    rcases Nat.lt_or_ge now e with hlt | hge
    · exact .inr ⟨by simp [arrival, hnext, hlt], by simp [arrival, hnext, hlt.le]⟩
    · refine .inl ⟨by simp [arrival, hnext, hge], fun i a ha => ?_⟩
      have := h.ahead e hnext i a ha
      omega

/-- The tolerance as the intervals that the burst is ahead. -/
lemma tolerance_eq (interval : Nat) (hburst : 1 ≤ burst) :
    ((interval * (burst - 1) : Nat) : Int) = ((burst : Int) - 1) * interval := by
  rw [Nat.cast_mul, Nat.cast_sub hburst, Int.mul_comm]
  rfl

/-- The grant of a call: at once, or the tolerance before its arrival. -/
lemma Clock.grant (h : limiter.Clock interval burst grants) (hinterval : 0 < interval)
    (hburst : 1 ≤ burst) (now : Nat) :
    ((now + (limiter.reserve now).1 : Nat) : Int) =
      max (now : Int) (limiter.arrival now - (burst - 1) * interval) := by
  have hgrant := grant_eq (by rw [h.interval_eq]; omega) now
  have htolerance := tolerance_eq interval hburst
  rw [h.interval_eq, h.burst_eq] at hgrant
  rw [hgrant, ← htolerance]
  generalize interval * (burst - 1) = tolerance
  omega

/-- No grant with the intervals since is behind the arrival of the next call. -/
lemma Clock.le_arrival (h : limiter.Clock interval burst grants) (now : Nat) {i a : Nat}
    (ha : grants[i]? = some a) :
    (a : Int) + (grants.length - i) * interval ≤ limiter.arrival now := by
  rcases h.arrival_eq now with ⟨heq, hall⟩ | ⟨_, hsome⟩
  · rw [heq]
    exact hall i a ha
  · exact h.ahead _ hsome i a ha

lemma Clock.interval_ne (h : limiter.Clock interval burst grants) (hinterval : 0 < interval) :
    limiter.interval ≠ 0 := by
  rw [h.interval_eq]
  omega

lemma tolerance_nonneg (interval : Nat) (hburst : 1 ≤ burst) : (0 : Int) ≤ (burst - 1) * interval := by
  rw [← tolerance_eq interval hburst]
  exact Int.natCast_nonneg _

/-- The clock moves on with a call. -/
lemma Clock.reserve (h : limiter.Clock interval burst grants) (hinterval : 0 < interval)
    (hburst : 1 ≤ burst) (now : Nat) :
    (limiter.reserve now).2.Clock interval burst (grants ++ [now + (limiter.reserve now).1]) := by
  have hgrant := h.grant hinterval hburst now
  have htolerance := tolerance_nonneg interval hburst
  have hle : now ≤ limiter.arrival now := Nat.le_max_right ..
  have hnext : (limiter.reserve now).2 =
      { limiter with nextEmission := some (limiter.arrival now + interval) } := by
    rw [reserve_eq (h.interval_ne hinterval), h.interval_eq]
  have hlength : ((grants ++ [now + (limiter.reserve now).1]).length : Int) = grants.length + 1 := by
    simp
  have hshift : ∀ i : Int, ((grants.length : Int) + 1 - i) * interval =
      (grants.length - i) * interval + interval := by
    intro i
    ring
  have hlast : ((grants.length : Int) + 1 - grants.length) * interval = interval := by ring
  rw [hnext]
  refine ⟨h.interval_eq, h.burst_eq, fun hnone => (by cases hnone), fun e he i a ha => ?_,
    fun e he => ?_⟩
  · cases he
    rw [hlength]
    rcases Nat.lt_or_ge i grants.length with hi | hi
    · rw [List.getElem?_append_left hi] at ha
      have := h.le_arrival now ha
      rw [hshift]
      omega
    · rw [List.getElem?_append_right hi] at ha
      obtain ⟨hi', rfl⟩ := List.getElem?_eq_some_iff.mp ha
      obtain rfl : i = grants.length := by simp at hi'; omega
      simp only [Nat.sub_self, List.getElem_cons_zero]
      rw [hlast, hgrant]
      omega
  · cases he
    rw [hlength]
    rcases h.arrival_eq now with ⟨heq, _⟩ | ⟨_, hsome⟩
    · -- the call is its own arrival, and is granted at once
      refine ⟨grants.length, _, List.getElem?_concat_length, ?_⟩
      rw [hlast, hgrant, heq]
      omega
    · obtain ⟨i, a, ha, hreached⟩ := h.reached _ hsome
      have hi := (List.getElem?_eq_some_iff.mp ha).1
      refine ⟨i, a, by rw [List.getElem?_append_left hi, ha], ?_⟩
      rw [hshift]
      omega

/-- The last grant, with the places counted from an earlier one. -/
lemma span_eq (i : Int) :
    ((grants.length : Int) - i + 1 - burst) * interval =
      (grants.length - i) * interval - (burst - 1) * interval := by
  ring

/-- The grant of a call keeps its distance from every earlier one. -/
lemma Clock.distance (h : limiter.Clock interval burst grants) (hinterval : 0 < interval)
    (hburst : 1 ≤ burst) (now : Nat) {i a : Nat} (ha : grants[i]? = some a) :
    ((grants.length : Int) - i + 1 - burst) * interval ≤
      ((now + (limiter.reserve now).1 : Nat) : Int) - a := by
  have hgrant := h.grant hinterval hburst now
  have := h.le_arrival now ha
  rw [span_eq, hgrant]
  omega

/-- No shorter wait would keep it. -/
lemma Clock.least (h : limiter.Clock interval burst grants) (hinterval : 0 < interval)
    (hburst : 1 ≤ burst) (now : Nat) {wait : Nat}
    (hwait : ∀ i a : Nat, grants[i]? = some a →
      ((grants.length : Int) - i + 1 - burst) * interval ≤ ((now + wait : Nat) : Int) - a) :
    (limiter.reserve now).1 ≤ wait := by
  have hgrant := h.grant hinterval hburst now
  have htolerance := tolerance_nonneg interval hburst
  rcases h.arrival_eq now with ⟨heq, _⟩ | ⟨_, hsome⟩
  · rw [heq] at hgrant
    omega
  · -- the grant that the clock stands on asks for the whole wait
    obtain ⟨i, a, ha, hreached⟩ := h.reached _ hsome
    have hasks := hwait i a ha
    rw [span_eq] at hasks
    omega

/-! ## Every sequence of calls -/

lemma clock_new (interval : Nat) (hburst : 1 ≤ burst) : (new interval burst).Clock interval burst [] :=
  ⟨rfl, by simp [new]; omega, fun _ => rfl, fun e he => (by cases he), fun e he => (by cases he)⟩

lemma spaced_concat {last : Nat} (h : Spaced interval burst grants) (hburst : 1 ≤ burst)
    (hlast : ∀ i a : Nat, grants[i]? = some a →
      ((grants.length : Int) - i + 1 - burst) * interval ≤ (last : Int) - a) :
    Spaced interval burst (grants ++ [last]) := by
  intro i j a b hij ha hb
  rcases Nat.lt_or_ge j grants.length with hj | hj
  · rw [List.getElem?_append_left (by omega)] at ha
    rw [List.getElem?_append_left hj] at hb
    exact h i j a b hij ha hb
  · rw [List.getElem?_append_right hj] at hb
    obtain ⟨hj', rfl⟩ := List.getElem?_eq_some_iff.mp hb
    obtain rfl : j = grants.length := by simp at hj'; omega
    simp only [Nat.sub_self, List.getElem_cons_zero]
    rcases Nat.lt_or_ge i grants.length with hi | hi
    · rw [List.getElem?_append_left hi] at ha
      exact hlast i a ha
    · obtain rfl : i = grants.length := by omega
      obtain rfl : last = a := by simpa using ha
      have htolerance := tolerance_nonneg interval hburst
      have hone : ((grants.length : Int) - grants.length + 1 - burst) * interval =
          -((burst - 1) * interval) := by ring
      omega

-- The induction is on the calls, with the grants before them as a parameter.
lemma Clock.run (hinterval : 0 < interval) (hburst : 1 ≤ burst) (nows : List Nat)
    (h : limiter.Clock interval burst grants) (hspaced : Spaced interval burst grants) :
    Spaced interval burst (grants ++ limiter.grants nows) ∧
      ∀ k now wait : Nat, nows[k]? = some now → (limiter.waits nows)[k]? = some wait →
        ∀ wait', WithinRate interval burst
          (grants ++ (limiter.grants nows).take k ++ [now + wait']) → wait ≤ wait' := by
  induction nows generalizing limiter grants with
  | nil => exact ⟨by simpa [RateLimiter.grants, waits] using hspaced, by simp⟩
  | cons first nows ih =>
    have hnext := spaced_concat hspaced hburst fun i a ha => h.distance hinterval hburst first ha
    obtain ⟨hrest, hleast⟩ := ih (h.reserve hinterval hburst first) hnext
    have hgrants : limiter.grants (first :: nows) =
        (first + (limiter.reserve first).1) :: (limiter.reserve first).2.grants nows := rfl
    refine ⟨by rw [hgrants, List.append_cons]; exact hrest, fun k now wait hnow hwait wait' hrate => ?_⟩
    cases k with
    | zero =>
      obtain rfl : first = now := by simpa using hnow
      obtain rfl : (limiter.reserve first).1 = wait := by simpa [waits] using hwait
      rw [List.take_zero, List.append_nil] at hrate
      exact h.least hinterval hburst first fun i a ha => hrate.last ha
    | succ k =>
      rw [hgrants, List.take_succ_cons, List.append_cons grants] at hrate
      exact hleast k now wait (by simpa using hnow) (by simpa [waits] using hwait) wait' hrate

/-- **The rate of the limiter.**  Whatever instants the calls read, any `n` of the grants in the order of
their reservations span at least `n - burst` intervals.  Each wait is the least with which that still
holds together with all earlier grants; this does not even need clocks that never go back. -/
theorem reserve_within_rate {interval burst : Nat} (hinterval : 0 < interval) (hburst : 1 ≤ burst)
    (nows : List Nat) :
    WithinRate interval burst ((new interval burst).grants nows) ∧
      ∀ k now wait : Nat, nows[k]? = some now →
        ((new interval burst).waits nows)[k]? = some wait →
        ∀ wait', WithinRate interval burst
          (((new interval burst).grants nows).take k ++ [now + wait']) → wait ≤ wait' := by
  have hempty : Spaced interval burst [] := fun i j a b _ ha => by simp at ha
  obtain ⟨hspaced, hleast⟩ := (clock_new interval hburst).run hinterval hburst nows hempty
  simp only [List.nil_append] at hspaced hleast
  exact ⟨hspaced.withinRate, hleast⟩

/-- Five calls at once, then a sixth that waits one interval. -/
theorem reserve_within_rate_burst :
    (new 50 5).waits [7, 7, 7, 7, 7, 7] = [0, 0, 0, 0, 0, 50] ∧
      WithinRate 50 5 ((new 50 5).grants [7, 7, 7, 7, 7, 7]) :=
  ⟨by decide, (reserve_within_rate (by decide) (by decide) [7, 7, 7, 7, 7, 7]).1⟩

end RateLimiter

end Bitmagnet.Tmdb
