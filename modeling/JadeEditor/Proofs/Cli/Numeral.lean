import JadeEditor.Cli.Invocation
import JadeEditor.Proofs.Line.Words
import JadeEditor.Proofs.Number.Integer
import Mathlib.Data.List.TakeWhile

/-!
# Numerals in options

A numeral is a row of digits with white space around it. It is read as a double, so a long one
may be rounded, but what is rounded is above every number that an option may stand for: the
number an option is given is the one its digits denote.
-/

namespace JadeEditor

set_option autoImplicit false

open CodeUnit

namespace Text

/-- The text is a numeral for `n`: digits, one at least, with white space on either side. Zeros
may stand in front. -/
def IsNumeral (t : Text) (n : Nat) : Prop :=
  ∃ front digits back : Text, t = front ++ digits ++ back
    ∧ (∀ c ∈ front, c.isSpace) ∧ (∀ c ∈ back, c.isSpace)
    ∧ digits ≠ [] ∧ (∀ c ∈ digits, c.isDigit)
    ∧ n = Nat.ofDigits 10 (digits.reverse.map fun c => c.toNat - 0x30)

theorem digitsValue_eq_ofDigits (t : Text) :
    t.digitsValue = Nat.ofDigits 10 (t.reverse.map fun c => c.toNat - 0x30) := by
  rw [digitsValue, ← List.foldr_reverse]
  induction t.reverse with
  | nil => rfl
  | cons c t ih =>
    rw [List.foldr_cons, List.map_cons, Nat.ofDigits_cons, ih, Nat.add_comm]

/-! ## White space at the ends -/

theorem trim_of_parts {front middle back : Text} (hfront : ∀ c ∈ front, c.isSpace)
    (hback : ∀ c ∈ back, c.isSpace) (hne : middle ≠ []) (hmiddle : ∀ c ∈ middle, ¬ c.isSpace) :
    trim (front ++ middle ++ back) = middle := by
  have hstart : (middle ++ back).dropWhile isSpace = middle ++ back := by
    obtain ⟨c, more, rfl⟩ := List.exists_cons_of_ne_nil hne
    exact List.dropWhile_cons_of_neg (hmiddle c List.mem_cons_self)
  have hreverse : ∀ c ∈ back.reverse, c.isSpace := fun c hc => hback c (List.mem_reverse.mp hc)
  have hend : middle.reverse.dropWhile isSpace = middle.reverse :=
    List.dropWhile_eq_self_iff.mpr fun _ => hmiddle _ (List.mem_reverse.mp (List.getElem_mem _))
  rw [trim, List.append_assoc, List.dropWhile_append_of_pos hfront, hstart, List.reverse_append,
    List.dropWhile_append_of_pos hreverse, hend, List.reverse_reverse]

theorem exists_parts_of_trim (t : Text) : ∃ front back : Text, t = front ++ trim t ++ back
    ∧ (∀ c ∈ front, c.isSpace) ∧ (∀ c ∈ back, c.isSpace) := by
  obtain ⟨u, hu⟩ : ∃ u, u = t.dropWhile isSpace := ⟨_, rfl⟩
  refine ⟨t.takeWhile isSpace, (u.reverse.takeWhile isSpace).reverse, ?_,
    fun c hc => List.mem_takeWhile_imp hc,
    fun c hc => List.mem_takeWhile_imp (List.mem_reverse.mp hc)⟩
  have hcut := congrArg List.reverse
    (List.takeWhile_append_dropWhile (p := isSpace) (l := u.reverse))
  rw [List.reverse_append, List.reverse_reverse] at hcut
  rw [trim, ← hu, List.append_assoc, hcut, hu, List.takeWhile_append_dropWhile]

/-- A numeral can be told from what is left when the white space is taken off. -/
theorem isNumeral_iff {t : Text} {n : Nat} : t.IsNumeral n
    ↔ t.trim ≠ [] ∧ (∀ c ∈ t.trim, c.isDigit) ∧ n = t.trim.digitsValue := by
  constructor
  · rintro ⟨front, digits, back, rfl, hfront, hback, hne, hdigits, rfl⟩
    have hmiddle : ∀ c ∈ digits, ¬ c.isSpace := by
      intro c hc
      have hword : c.isWord := by simp [isWord, hdigits c hc]
      simp [Line.isSpace_eq_false_of_isWord hword]
    rw [trim_of_parts hfront hback hne hmiddle]
    exact ⟨hne, hdigits, (digitsValue_eq_ofDigits digits).symm⟩
  · rintro ⟨hne, hdigits, rfl⟩
    obtain ⟨front, back, hparts, hfront, hback⟩ := exists_parts_of_trim t
    exact ⟨front, t.trim, back, hparts, hfront, hback, hne, hdigits, digitsValue_eq_ofDigits _⟩

theorem IsNumeral.unique {t : Text} {m n : Nat} (hm : t.IsNumeral m) (hn : t.IsNumeral n) :
    m = n :=
  (isNumeral_iff.mp hm).2.2.trans (isNumeral_iff.mp hn).2.2.symm

end Text

namespace Cli

theorem digitsNumber?_eq_some_iff {value : Text} {x : Number} : digitsNumber? value = some x
    ↔ ∃ n, value.IsNumeral n ∧ x = .ofDecimal false n 0 := by
  simp only [Text.isNumeral_iff]
  rw [digitsNumber?]
  simp only [Bool.and_eq_true, Bool.not_eq_true', List.isEmpty_eq_false_iff, List.all_eq_true]
  split
  · rename_i hdigits
    simp only [Option.some.injEq]
    constructor
    · rintro rfl
      exact ⟨_, ⟨hdigits.1, hdigits.2, rfl⟩, rfl⟩
    · rintro ⟨_, ⟨-, -, rfl⟩, rfl⟩
      rfl
  · rename_i hdigits
    simp only [reduceCtorEq, false_iff]
    rintro ⟨_, ⟨hne, hall, -⟩, -⟩
    exact hdigits ⟨hne, hall⟩

theorem positive?_eq_some_iff {value : Text} {n : Nat} : positive? value = some n
    ↔ value.IsNumeral n ∧ 1 ≤ n ∧ n ≤ maxSafe := by
  have hsafe {k : Int} (hk : k ≤ maxSafe) : k < 2 ^ 53 := Int.lt_of_le_of_lt hk (by decide)
  simp only [positive?, Option.bind_eq_bind, Option.bind_eq_some_iff, digitsNumber?_eq_some_iff]
  constructor
  · rintro ⟨_, ⟨m, hm, rfl⟩, k, hvalue, hrange⟩
    split at hrange
    · rename_i hbounds
      obtain rfl := Option.some.inj hrange
      obtain rfl := (Number.toInt?_ofDecimal_iff (hsafe hbounds.2)).mp hvalue
      rw [Int.toNat_natCast]
      exact ⟨hm, Int.natCast_pos.mp hbounds.1, Int.ofNat_le.mp hbounds.2⟩
    · cases hrange
  · rintro ⟨hn, hlow, hhigh⟩
    have hbounds : 0 < (n : Int) ∧ (n : Int) ≤ maxSafe :=
      ⟨Int.natCast_pos.mpr hlow, Int.ofNat_le.mpr hhigh⟩
    refine ⟨_, ⟨n, hn, rfl⟩, n, (Number.toInt?_ofDecimal_iff (hsafe hbounds.2)).mpr rfl, ?_⟩
    rw [if_pos hbounds, Int.toNat_natCast]

/-- An option that stands for a positive integer gives the number that its digits denote, if
this is not zero and at most `2 ^ 53 - 1`. Every other text is refused as invalid input. So a
numeral that is rounded on the way is never accepted. -/
theorem parsePositive_is_exact (name value : Text) :
    (∀ n, parsePositive name value = .ok n
        ↔ value.IsNumeral n ∧ 1 ≤ n ∧ n ≤ 2 ^ 53 - 1)
      ∧ ((¬ ∃ n, value.IsNumeral n ∧ 1 ≤ n ∧ n ≤ 2 ^ 53 - 1)
        ↔ parsePositive name value = .error (notPositive name value))
      ∧ (notPositive name value).kind = .input
      ∧ (notPositive name value).code = .invalidInput
      ∧ ∀ m n, value.IsNumeral m → parsePositive name value = .ok n → n = m := by
  have hmax : maxSafe = 2 ^ 53 - 1 := rfl
  have hok (n : Nat) : parsePositive name value = .ok n
      ↔ value.IsNumeral n ∧ 1 ≤ n ∧ n ≤ 2 ^ 53 - 1 := by
    rw [← hmax, ← positive?_eq_some_iff, parsePositive]
    cases positive? value with
    | none => simp
    | some m => simp
  refine ⟨hok, ?_, rfl, rfl, fun m n hm hn => ((hok n).mp hn).1.unique hm⟩
  simp only [← hok]
  rw [parsePositive]
  cases positive? value with
  | none => simp
  | some m => simp

end Cli

end JadeEditor
