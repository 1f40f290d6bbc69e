import Coordination.Json.Document

/-!
Integers as they are written and read back. The digits of a number are what the reader of a literal
takes off its front, they have no zero in front of others, and they stand for the number; so a
written integer is read as the literal that has this integer. What fits a 64-bit word is finite as
well.
-/

namespace Coordination.Json

namespace Number

def digits (n : Nat) : List Nat := (Nat.toDigits 10 n).map fun c => c.toNat - 48

/-- The literal that an integer is written as. -/
def ofInt (n : Int) : Number := ⟨n < 0, digits n.natAbs, none, none⟩

theorem ofInt_ofNat (n : Nat) : ofInt (.ofNat n) = ⟨false, digits n, none, none⟩ := rfl

theorem ofInt_negSucc (n : Nat) : ofInt (.negSucc n) = ⟨true, digits (n + 1), none, none⟩ := by
  rw [ofInt, decide_eq_true (Int.negSucc_lt_zero n), Int.natAbs_negSucc]

section Digits

theorem isDigit_of_mem {n : Nat} {c : Char} (h : c ∈ Nat.toDigits 10 n) : c.isDigit :=
  Nat.isDigit_of_mem_toDigits (by decide) (by decide) h

theorem digit?_of_isDigit {c : Char} (h : c.isDigit) : digit? c = some (c.toNat - 48) := by
  have hrange : '0' ≤ c ∧ c ≤ '9' := by
    simpa [Char.isDigit, Char.le_def] using h
  rw [digit?, if_pos hrange]

theorem ofDigits_digits (n : Nat) : ofDigits (digits n) = n := by
  have hfold : ofDigits (digits n) = Nat.ofDigitChars 10 (Nat.toDigits 10 n) 0 := by
    rw [ofDigits, digits, List.foldl_map, Nat.ofDigitChars_eq_foldl]
    rfl
  rw [hfold, Nat.ofDigitChars_ten_toDigits]

theorem digits_of_lt_ten {n : Nat} (h : n < 10) : digits n = [n] := by
  rw [digits, Nat.toDigits_of_lt_base h, List.map_singleton, Nat.toNat_digitChar_sub_48_of_lt_ten h]

/-- A number that is not zero begins with a digit that is not zero. -/
theorem digits_of_pos {n : Nat} (h : 0 < n) : ∃ d r, digits n = (d + 1) :: r := by
  induction n using Nat.strongRecOn with
  | ind n ih =>
      by_cases hlt : n < 10
      · exact ⟨n - 1, [], by rw [digits_of_lt_ten hlt, Nat.sub_add_cancel h]⟩
      · obtain ⟨d, r, hr⟩ := ih (n / 10) (by omega) (by omega)
        refine ⟨d, r ++ [n % 10], ?_⟩
        have hmod : (Nat.digitChar (n % 10)).toNat - 48 = n % 10 :=
          Nat.toNat_digitChar_sub_48_of_lt_ten (by omega)
        rw [digits, Nat.toDigits_of_base_le (by decide) (by omega), List.map_append,
          List.map_singleton, hmod]
        exact congrArg (· ++ [n % 10]) hr

theorem wholeOk_digits (n : Nat) : wholeOk (digits n) := by
  rcases Nat.eq_zero_or_pos n with rfl | hpos
  · decide
  · obtain ⟨d, r, hr⟩ := digits_of_pos hpos
    rw [hr]
    rfl

/-- Digits at the end of a text are all taken. -/
theorem takeDigits_of_isDigit {cs : List Char} (h : ∀ c ∈ cs, c.isDigit) :
    takeDigits cs = (cs.map fun c => c.toNat - 48, []) := by
  induction cs with
  | nil => rfl
  | cons c cs ih =>
      have hrest := ih fun x hx => h x (List.mem_cons_of_mem _ hx)
      rw [takeDigits, digit?_of_isDigit (h c List.mem_cons_self), hrest]
      rfl

end Digits

section Literals

theorem parseUnsigned_digits (negative : Bool) (n : Nat) :
    parseUnsigned negative (Nat.toDigits 10 n) = some ⟨negative, digits n, none, none⟩ := by
  have hwhole : wholeOk ((Nat.toDigits 10 n).map fun c => c.toNat - 48) = true := wholeOk_digits n
  rw [parseUnsigned, takeDigits_of_isDigit fun c hc => isDigit_of_mem hc]
  dsimp only
  rw [hwhole]
  rfl

/-- A written integer is read as its literal. -/
theorem parse_decimal (n : Int) : parse (decimal n) = some (ofInt n) := by
  cases n with
  | ofNat n =>
      have hparse : parse (Nat.toDigits 10 n) = parseUnsigned false (Nat.toDigits 10 n) := by
        unfold parse
        split
        · rename_i r hr
          have hdigit : '-'.isDigit := isDigit_of_mem (hr ▸ List.mem_cons_self)
          exact absurd hdigit (by decide)
        · rfl
      rw [decimal, hparse, parseUnsigned_digits, ofInt_ofNat]
  | negSucc n =>
      rw [decimal, parse, parseUnsigned_digits, ofInt_negSucc]

theorem int?_ofInt (n : Int) : (ofInt n).int? = some n := by
  cases n with
  | ofNat n =>
      rw [ofInt_ofNat, int?, ofDigits_digits]
      rfl
  | negSucc n =>
      obtain ⟨d, r, hr⟩ := digits_of_pos (Nat.succ_pos n)
      have hwhole : digits (n + 1) ≠ [0] := by simp [hr]
      rw [ofInt_negSucc, int?, if_pos rfl, if_neg hwhole, ofDigits_digits]
      rfl

theorem le_foldl_digits (n : Nat) (ds : List Nat) : n ≤ ds.foldl (fun n d => 10 * n + d) n := by
  induction ds generalizing n with
  | nil => exact Nat.le_refl n
  | cons d ds ih =>
      have hstep : n ≤ 10 * n + d := by omega
      exact Nat.le_trans hstep (ih (10 * n + d))

/-- Digits of a number that fits a word are all significant. -/
theorem significand_of_lt {n : Nat} {ds : List Nat}
    (h : ds.foldl (fun n d => 10 * n + d) n < 18446744073709551616) :
    significand n ds = (ds.foldl (fun n d => 10 * n + d) n, []) := by
  induction ds generalizing n with
  | nil => rfl
  | cons d ds ih =>
      have hstep : 10 * n + d < 18446744073709551616 := Nat.lt_of_le_of_lt (le_foldl_digits _ ds) h
      rw [significand, if_pos hstep]
      exact ih h

theorem finite_ofInt {n : Int} (h : n.natAbs < 18446744073709551616) : (ofInt n).finite := by
  have hvalue : (digits n.natAbs).foldl (fun n d => 10 * n + d) 0 = n.natAbs := ofDigits_digits _
  have hall : significand 0 (digits n.natAbs) = (n.natAbs, []) := by
    rw [significand_of_lt (by rwa [hvalue]), hvalue]
  simp [ofInt, finite, scaled, hall, significand, exponentValue, finiteParts]

end Literals

end Number

namespace Document

theorem ofJson_int (n : Int) : ofJson (.int n) = .num (Number.ofInt n) := by
  rw [ofJson]
  rfl

end Document

end Coordination.Json
