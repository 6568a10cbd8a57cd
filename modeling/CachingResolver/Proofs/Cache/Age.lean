import CachingResolver.Cache.Entry
import Mathlib.Algebra.Group.Int.Defs
import Mathlib.Algebra.Group.Nat.Defs
import Mathlib.Logic.Basic

/-!
# The age of an entry over the integers

Ages are differences of 64-bit words, and a checkpoint may bring an entry with any stamp.  What is
read off an entry is a function of the word of its age (`isExpired_iff_age`,
`toNat_remainingTtl_eq_age`), since the second subtraction, of the age from the time to live, never
overflows (`toInt_left`).  The word is the age exactly when the age fits in it
(`toInt_age_eq_elapsed_iff`).  Exactly then an entry ages as its stamp and its time to live say,
under checked arithmetic as well as under arithmetic that wraps around (`ages_iff_spans`).
Otherwise checked arithmetic gives no result, and arithmetic that wraps around a wrong one.

No age overflows that spans less than `2 ^ 63` seconds (`toInt_age`).  From its stamp on, up to its
time to live later, an entry is live (`isExpired_eq_false`).  With a stamp between zero and the
present, no age overflows: a live entry is not older than its time to live (`age_le_of_live`), and
one that has expired stays so (`isExpired_mono`).
-/

namespace CachingResolver.Entry

/-- The seconds from the stamp to a time, over the integers. -/
def elapsed (e : Entry) (now : Int64) : Int :=
  now.toInt - e.storedAt.toInt

/-- The seconds from the stamp to a time fit in a 64-bit word with a sign. -/
def Spans (e : Entry) (now : Int64) : Prop :=
  -2 ^ 63 ≤ e.elapsed now ∧ e.elapsed now < 2 ^ 63

instance (e : Entry) (now : Int64) : Decidable (e.Spans now) :=
  inferInstanceAs (Decidable (_ ∧ _))

/-- The part of the age that counts against the time to live. -/
def spent (e : Entry) (now : Int64) : Int64 :=
  if e.age now < 0 then 0 else e.age now

/-- What is left of the time to live, below zero once it is used up. -/
def left (e : Entry) (now : Int64) : Int64 :=
  e.lifetime - e.spent now

variable {e : Entry} {now later : Int64}

/-! ### The word of the age -/

theorem toInt_lifetime (e : Entry) : e.lifetime.toInt = e.ttl.toNat := by
  have hlt : e.ttl.toNat < 2 ^ 32 := e.ttl.toNat_lt
  show e.ttl.toUInt64.toBitVec.toInt = e.ttl.toNat
  rw [BitVec.toInt_eq_toNat_of_lt]
  · simp
  · simp
    omega

theorem toInt_age_eq_bmod (e : Entry) (now : Int64) :
    (e.age now).toInt = (e.elapsed now).bmod (2 ^ 64) :=
  Int64.toInt_sub now e.storedAt

/-- The word of the age is the age exactly when the age fits in it. -/
theorem toInt_age_eq_elapsed_iff : (e.age now).toInt = e.elapsed now ↔ e.Spans now := by
  constructor
  · intro h
    have hlow := (e.age now).le_toInt
    have hhigh := (e.age now).toInt_lt
    rw [h] at hlow hhigh
    exact ⟨hlow, hhigh⟩
  · rintro ⟨hlow, hhigh⟩
    rw [toInt_age_eq_bmod]
    exact Int.bmod_eq_of_le (by omega) (by omega)

/-- An age that does not fit comes out as one on the other side of zero. -/
theorem toInt_age_of_not_spans (h : ¬ e.Spans now) :
    2 ^ 63 ≤ e.elapsed now ∧ (e.age now).toInt < 0 ∨
      e.elapsed now < -2 ^ 63 ∧ 0 < (e.age now).toInt := by
  have hage := toInt_age_eq_bmod e now
  have hnow := now.le_toInt
  have hnow' := now.toInt_lt
  have hstamp := e.storedAt.le_toInt
  have hstamp' := e.storedAt.toInt_lt
  have helapsed : e.elapsed now = now.toInt - e.storedAt.toInt := rfl
  rcases not_and_or.1 h with hlow | hhigh
  · right
    have hback : (e.elapsed now).bmod (2 ^ 64) = e.elapsed now + 2 ^ 64 := by
      rw [← Int.add_bmod_right, Int.bmod_eq_of_le] <;> omega
    omega
  · left
    have hback : (e.elapsed now).bmod (2 ^ 64) = e.elapsed now - 2 ^ 64 := by
      rw [← Int.sub_bmod_right, Int.bmod_eq_of_le] <;> omega
    omega

theorem toInt_spent (e : Entry) (now : Int64) :
    (e.spent now).toInt = max 0 (e.age now).toInt := by
  unfold spent
  split
  · rename_i h
    rw [Int64.lt_iff_toInt_lt, Int64.toInt_zero] at h
    rw [Int64.toInt_zero]
    omega
  · rename_i h
    rw [Int64.lt_iff_toInt_lt, Int64.toInt_zero] at h
    omega

/-- The age that counts can be taken from the time to live without an overflow. -/
theorem toInt_left (e : Entry) (now : Int64) :
    (e.left now).toInt = e.ttl.toNat - (e.spent now).toInt := by
  have httl : e.ttl.toNat < 2 ^ 32 := e.ttl.toNat_lt
  have hspent := toInt_spent e now
  have hhigh := (e.age now).toInt_lt
  unfold left
  rw [Int64.toInt_sub, toInt_lifetime, Int.bmod_eq_of_le] <;> omega

/-! ### What is read off an entry -/

theorem isExpired_iff_age : e.isExpired now = true ↔ (e.ttl.toNat : Int) < (e.age now).toInt := by
  unfold isExpired
  rw [decide_eq_true_iff, Int64.lt_iff_toInt_lt, toInt_lifetime]

theorem toNat_remainingTtl_eq_age (e : Entry) (now : Int64) :
    ((e.remainingTtl now).toNat : Int) = max 0 (e.ttl.toNat - max 0 (e.age now).toInt) := by
  have httl : e.ttl.toNat < 2 ^ 32 := e.ttl.toNat_lt
  have hleft := toInt_left e now
  rw [toInt_spent] at hleft
  have hremaining : e.remainingTtl now =
      if e.left now < 0 then 0 else (e.left now).toUInt64.toUInt32 := rfl
  rw [hremaining]
  split
  · rename_i hneg
    rw [Int64.lt_iff_toInt_lt, Int64.toInt_zero] at hneg
    rw [UInt32.toNat_zero]
    omega
  · rename_i hnonneg
    rw [Int64.lt_iff_toInt_lt, Int64.toInt_zero] at hnonneg
    -- A word that is not negative is the same number without its sign.
    have hword : (e.left now).toUInt64.toBitVec.toInt = (e.left now).toInt := rfl
    rw [BitVec.toInt_eq_toNat_cond] at hword
    rw [UInt64.toNat_toUInt32, ← UInt64.toNat_toBitVec]
    split at hword <;> omega

/-! ### Ages that do not overflow -/

theorem toInt_age (hfrom : e.storedAt.toInt ≤ now.toInt)
    (hspan : now.toInt - e.storedAt.toInt < 2 ^ 63) :
    (e.age now).toInt = now.toInt - e.storedAt.toInt :=
  toInt_age_eq_elapsed_iff.2 ⟨by unfold elapsed; omega, hspan⟩

theorem isExpired_eq_false_iff (hfrom : e.storedAt.toInt ≤ now.toInt)
    (hspan : now.toInt - e.storedAt.toInt < 2 ^ 63) :
    e.isExpired now = false ↔ now.toInt ≤ e.storedAt.toInt + e.ttl.toNat := by
  rw [← Bool.not_eq_true, isExpired_iff_age, toInt_age hfrom hspan]
  omega

/-- From its stamp on, up to its time to live later, an entry is not expired. -/
theorem isExpired_eq_false (hfrom : e.storedAt.toInt ≤ now.toInt)
    (hto : now.toInt ≤ e.storedAt.toInt + e.ttl.toNat) : e.isExpired now = false := by
  have hlt : e.ttl.toNat < 2 ^ 32 := e.ttl.toNat_lt
  exact (isExpired_eq_false_iff hfrom (by omega)).2 hto

/-- An entry whose stamp lies between zero and the present is not older than its time to live while
it is not expired. -/
theorem age_le_of_live (hstamp : 0 ≤ e.storedAt.toInt ∧ e.storedAt.toInt ≤ now.toInt)
    (hlive : e.isExpired now = false) : now.toInt - e.storedAt.toInt ≤ e.ttl.toNat := by
  have hlt := now.toInt_lt
  have hto := (isExpired_eq_false_iff hstamp.2 (by omega)).1 hlive
  omega

/-- An entry that has expired stays so. -/
theorem isExpired_mono (hstamp : 0 ≤ e.storedAt.toInt ∧ e.storedAt.toInt ≤ now.toInt)
    (hlater : now ≤ later) (h : e.isExpired now = true) : e.isExpired later = true := by
  have hlater := Int64.le_iff_toInt_le.1 hlater
  have hlt := later.toInt_lt
  rw [← Bool.not_eq_false, isExpired_eq_false_iff] at h ⊢
  all_goals omega

/-! ### Ageing -/

/-- At a time, an entry has expired exactly when more seconds have passed since its stamp than its
time to live allows, and what is left of the time to live is what these seconds have not used up. -/
structure Ages (e : Entry) (now : Int64) : Prop where
  isExpired_iff : e.isExpired now = true ↔ (e.ttl.toNat : Int) < e.elapsed now
  remainingTtl_eq :
    ((e.remainingTtl now).toNat : Int) = max 0 (e.ttl.toNat - max 0 (e.elapsed now))

theorem ages_of_spans (h : e.Spans now) : e.Ages now := by
  have hage := toInt_age_eq_elapsed_iff.2 h
  refine ⟨?_, ?_⟩
  · rw [isExpired_iff_age, hage]
  · rw [toNat_remainingTtl_eq_age, hage]

/-- An age that does not fit shows: a stamp too far in the past lets an entry live again, and one
too far in the future takes time away from it. -/
theorem spans_of_ages (h : e.Ages now) : e.Spans now := by
  refine Decidable.byContradiction fun hfar => ?_
  have hexpired := h.isExpired_iff
  have hremaining := h.remainingTtl_eq
  have httl : e.ttl.toNat < 2 ^ 32 := e.ttl.toNat_lt
  rw [isExpired_iff_age] at hexpired
  rw [toNat_remainingTtl_eq_age] at hremaining
  rcases toInt_age_of_not_spans hfar with ⟨hpast, hage⟩ | ⟨hfuture, hage⟩
  · omega
  · omega

theorem remainingTtl_eq_zero_of_isExpired (h : e.isExpired now = true) :
    e.remainingTtl now = 0 := by
  have hremaining := toNat_remainingTtl_eq_age e now
  have hexpired := isExpired_iff_age.1 h
  apply UInt32.toNat_inj.1
  rw [UInt32.toNat_zero]
  omega

theorem remainingTtl_le_ttl (e : Entry) (now : Int64) : e.remainingTtl now ≤ e.ttl := by
  have hremaining := toNat_remainingTtl_eq_age e now
  rw [UInt32.le_iff_toNat_le]
  omega

theorem Ages.isExpired_mono (h : e.Ages now) (hlater : e.Ages later) (hle : now ≤ later)
    (hexpired : e.isExpired now = true) : e.isExpired later = true := by
  have hle := Int64.le_iff_toInt_le.1 hle
  have hnow := h.isExpired_iff.1 hexpired
  unfold elapsed at hnow
  refine hlater.isExpired_iff.2 ?_
  unfold elapsed
  omega

theorem Ages.remainingTtl_anti (h : e.Ages now) (hlater : e.Ages later) (hle : now ≤ later) :
    e.remainingTtl later ≤ e.remainingTtl now := by
  have hle := Int64.le_iff_toInt_le.1 hle
  have hnow := h.remainingTtl_eq
  have hthen := hlater.remainingTtl_eq
  unfold elapsed at hnow hthen
  rw [UInt32.le_iff_toNat_le]
  omega

/-! ### Checked arithmetic -/

theorem difference?_eq (a b : Int64) :
    difference? a b =
      if -2 ^ 63 ≤ a.toInt - b.toInt ∧ a.toInt - b.toInt < 2 ^ 63 then some (a - b) else none := by
  have hiff : BitVec.ssubOverflow a.toBitVec b.toBitVec = true ↔
      ¬ (-2 ^ 63 ≤ a.toInt - b.toInt ∧ a.toInt - b.toInt < 2 ^ 63) := by
    show (decide (2 ^ 63 ≤ a.toInt - b.toInt) || decide (a.toInt - b.toInt < -2 ^ 63)) = true ↔ _
    rw [Bool.or_eq_true, decide_eq_true_iff, decide_eq_true_iff]
    omega
  unfold difference?
  simp only [hiff, ite_not]

theorem age?_eq (e : Entry) (now : Int64) :
    e.age? now = if e.Spans now then some (e.age now) else none :=
  difference?_eq now e.storedAt

/-- Checked arithmetic tells whether an entry has expired exactly when its age fits. -/
theorem isExpired?_eq (e : Entry) (now : Int64) :
    e.isExpired? now = if e.Spans now then some (e.isExpired now) else none := by
  rw [isExpired?, age?_eq]
  split <;> rfl

/-- Checked arithmetic tells what is left of the time to live exactly when the age fits. -/
theorem remainingTtl?_eq (e : Entry) (now : Int64) :
    e.remainingTtl? now = if e.Spans now then some (e.remainingTtl now) else none := by
  have hleft : difference? e.lifetime (e.spent now) = some (e.left now) := by
    have httl : e.ttl.toNat < 2 ^ 32 := e.ttl.toNat_lt
    have hspent := toInt_spent e now
    have hhigh := (e.age now).toInt_lt
    rw [difference?_eq, if_pos]
    · rfl
    · rw [toInt_lifetime]
      omega
  rw [remainingTtl?, age?_eq]
  split
  · show (difference? e.lifetime (e.spent now)).bind _ = _
    rw [hleft]
    rfl
  · rfl

/-- At a time, checked arithmetic has results for an entry, and they are what its stamp and its time
to live say. -/
structure AgesSafely (e : Entry) (now : Int64) : Prop where
  isExpired?_eq : e.isExpired? now = some (decide ((e.ttl.toNat : Int) < e.elapsed now))
  exists_remainingTtl? : ∃ left, e.remainingTtl? now = some left ∧
    (left.toNat : Int) = max 0 (e.ttl.toNat - max 0 (e.elapsed now))

theorem agesSafely_iff_spans : e.AgesSafely now ↔ e.Spans now := by
  constructor
  · intro h
    refine Decidable.byContradiction fun hfar => ?_
    have hexpired := h.isExpired?_eq
    rw [isExpired?_eq, if_neg hfar] at hexpired
    cases hexpired
  · intro h
    have hages := ages_of_spans h
    constructor
    · rw [isExpired?_eq, if_pos h, Option.some.injEq, Bool.eq_iff_iff, decide_eq_true_iff]
      exact hages.isExpired_iff
    · rw [remainingTtl?_eq, if_pos h]
      exact ⟨_, rfl, hages.remainingTtl_eq⟩

/-- For any stamp, any time to live and any time: an entry ages as they say exactly when the seconds
from the stamp to the time fit in a 64-bit word, which is exactly when their subtraction does not
overflow; the other subtraction never does.  When they do not fit, checked arithmetic gives no
result; when they do, it gives that of arithmetic that wraps around.  An entry that has expired has
nothing left of its time to live, and no entry has more left than its time to live.  Between times
at which the seconds fit, an entry that has expired stays so, and what is left of its time to live
never grows. -/
theorem ages_iff_spans (e : Entry) (now : Int64) :
    (e.AgesSafely now ↔ e.Spans now) ∧
    (e.isExpired? now = if e.Spans now then some (e.isExpired now) else none) ∧
    (e.remainingTtl? now = if e.Spans now then some (e.remainingTtl now) else none) ∧
    (e.Ages now ↔ e.Spans now) ∧
    ((e.age now).toInt = e.elapsed now ↔ e.Spans now) ∧
    (e.left now).toInt = e.ttl.toNat - (e.spent now).toInt ∧
    (e.isExpired now = true → e.remainingTtl now = 0) ∧
    e.remainingTtl now ≤ e.ttl ∧
    ∀ later, now ≤ later → e.Spans now → e.Spans later →
      (e.isExpired now = true → e.isExpired later = true) ∧
        e.remainingTtl later ≤ e.remainingTtl now := by
  refine ⟨agesSafely_iff_spans, isExpired?_eq e now, remainingTtl?_eq e now,
    ⟨spans_of_ages, ages_of_spans⟩, toInt_age_eq_elapsed_iff, toInt_left e now,
    remainingTtl_eq_zero_of_isExpired, remainingTtl_le_ttl e now, ?_⟩
  intro later hle hnow hlater
  have hages := ages_of_spans hnow
  have hages' := ages_of_spans hlater
  exact ⟨hages.isExpired_mono hages' hle, hages.remainingTtl_anti hages' hle⟩

/-- An entry with the earliest stamp there is. -/
def earliestEntry : Entry :=
  { values := ["192.0.2.1"], ttl := 300, storedAt := Int64.minValue }

/-- It has expired a second before time zero.  At time zero its age does not fit in a word: checked
arithmetic has no result, and under arithmetic that wraps around it is live again, with all of its
time to live left. -/
theorem overflow_earliestEntry :
    earliestEntry.isExpired? (-1) = some true ∧
    (earliestEntry.isExpired? 0 = none ∧ earliestEntry.remainingTtl? 0 = none) ∧
    (earliestEntry.isExpired 0 = false ∧ earliestEntry.remainingTtl 0 = 300) ∧
    ¬ ∀ (e : Entry) (now : Int64), e.AgesSafely now := by
  have hnone : earliestEntry.isExpired? 0 = none := by decide
  refine ⟨by decide, ⟨hnone, by decide⟩, ⟨by decide, by decide⟩, fun hclaim => ?_⟩
  have hsome := (hclaim earliestEntry 0).isExpired?_eq
  rw [hnone] at hsome
  cases hsome

end CachingResolver.Entry
