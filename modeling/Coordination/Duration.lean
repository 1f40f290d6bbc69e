import Coordination.Word

/-!
Spans of time. A span is a number of nanoseconds that never exceeds the longest representable
one, 2^64 - 1 seconds and 999999999 nanoseconds. Doubling stops at that bound, halving rounds
down to the nanosecond.
-/

namespace Coordination

def Duration.maxNanos : Nat := 18446744073709551615999999999

/-- A span of time of at most `Duration.maxNanos` nanoseconds. -/
structure Duration where
  nanos : Nat
  le_max : nanos ≤ Duration.maxNanos := by decide
  deriving DecidableEq, Repr

namespace Duration

/-- The empty span; as a timeout it switches boosting off. -/
def zero : Duration := ⟨0, by decide⟩

def longest : Duration := ⟨maxNanos, Nat.le_refl _⟩

/-- The span of `n` nanoseconds, cut at the longest one. -/
def ofNanos (n : Nat) : Duration := ⟨min n maxNanos, Nat.min_le_right ..⟩

/-- The span of `n` milliseconds, cut at the longest one. -/
def ofMillis (n : Nat) : Duration := ofNanos (n * 1000000)

/-- The span of `secs` seconds and `nanos` nanoseconds, cut at the longest one. -/
def ofParts (secs nanos : Nat) : Duration := ofNanos (secs * 1000000000 + nanos)

def seconds (d : Duration) : Nat := d.nanos / 1000000000

def subsecond (d : Duration) : Nat := d.nanos % 1000000000

def millis (d : Duration) : Nat := d.nanos / 1000000

/-- A written span is a 64-bit number of milliseconds: what does not fit is cut off above. -/
def writtenMillis (d : Duration) : Nat := d.millis % wordSize

instance : LE Duration := ⟨fun a b => a.nanos ≤ b.nanos⟩
instance : LT Duration := ⟨fun a b => a.nanos < b.nanos⟩

instance (a b : Duration) : Decidable (a ≤ b) := inferInstanceAs (Decidable (a.nanos ≤ b.nanos))
instance (a b : Duration) : Decidable (a < b) := inferInstanceAs (Decidable (a.nanos < b.nanos))

instance : Max Duration := ⟨fun a b => if a ≤ b then b else a⟩

/-- Twice the span, cut at the longest one. -/
def double (d : Duration) : Duration := ofNanos (2 * d.nanos)

/-- Half the span, rounded down to the nanosecond. -/
def half (d : Duration) : Duration :=
  ⟨d.nanos / 2, Nat.le_trans (Nat.div_le_self ..) d.le_max⟩

theorem ext_nanos {a b : Duration} (h : a.nanos = b.nanos) : a = b := by
  cases a; cases b; simp_all

theorem le_iff {a b : Duration} : a ≤ b ↔ a.nanos ≤ b.nanos := Iff.rfl

theorem lt_iff {a b : Duration} : a < b ↔ a.nanos < b.nanos := Iff.rfl

@[simp] theorem nanos_zero : zero.nanos = 0 := rfl

@[simp] theorem nanos_double (d : Duration) : d.double.nanos = min (2 * d.nanos) maxNanos := rfl

@[simp] theorem nanos_half (d : Duration) : d.half.nanos = d.nanos / 2 := rfl

@[simp] theorem nanos_max (a b : Duration) : (max a b).nanos = max a.nanos b.nanos := by
  change (if a ≤ b then b else a).nanos = _
  split <;> rename_i h <;> rw [le_iff] at h <;> omega

end Duration

end Coordination
