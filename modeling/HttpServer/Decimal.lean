/-
  Decimal numbers — `std::stoull` reads back what `std::to_string` writes.

  1. **Digits** — every byte of `toDecimal n` is a digit, so it holds no blank, sign, CR or LF.

  2. **Value** — `toDecimal` writes `Nat.digits 10 n` from the last to the first, and `digitsValue`
     folds from the first to the last, so the value is `Nat.ofDigits` of the digits
     (`digitsValue_toDecimal`).

  3. **Field values** — `Denotes v n`: `v` is, between blanks, a string of digits for `n`.  That is
     what a Content-Length is meant to be, and less than what `stoull` takes for a number.
-/
import HttpServer.HttpMessage
import Mathlib.Data.List.DropRight
import Mathlib.Data.List.TakeWhile
import Mathlib.Data.Nat.Digits.Lemmas

namespace HttpServer

/-- A non-empty string of digits: no sign, no blank, and no limit on its length. -/
def IsDecimal (s : Bytes) : Prop := s ≠ [] ∧ ∀ b ∈ s, isdigit b = true

instance (s : Bytes) : Decidable (IsDecimal s) :=
  haveI : Decidable (∀ b ∈ s, isdigit b = true) := List.decidableBAll _ s
  inferInstanceAs (Decidable (_ ∧ _))

/-- A space or a tab, the two bytes that `find_first_not_of(" \t")` passes over. -/
def isBlank (b : Byte) : Bool := blanks.contains b

/-- A value without the spaces and tabs at its ends. -/
def stripBlanks (v : Bytes) : Bytes := (v.dropWhile isBlank).rdropWhile isBlank

/-- The field value `v` denotes the number `n`: between blanks it is a string of digits, and nothing
    else (no sign, no list, no further text), and these digits are those of `n`. -/
def Denotes (v : Bytes) (n : Nat) : Prop :=
  IsDecimal (stripBlanks v) ∧ digitsValue (stripBlanks v) = n

instance (v : Bytes) (n : Nat) : Decidable (Denotes v n) := inferInstanceAs (Decidable (_ ∧ _))

theorem isdigit_ofNat {d : Nat} (h : d < 10) : isdigit (UInt8.ofNat (48 + d)) = true := by
  have hd : d = 0 ∨ d = 1 ∨ d = 2 ∨ d = 3 ∨ d = 4 ∨ d = 5 ∨ d = 6 ∨ d = 7 ∨ d = 8 ∨ d = 9 := by
    omega
  rcases hd with rfl | rfl | rfl | rfl | rfl | rfl | rfl | rfl | rfl | rfl <;> decide

/-- **Every byte is a digit.** -/
theorem isdigit_of_mem_toDecimal {n : Nat} {b : Byte} (hb : b ∈ toDecimal n) :
    isdigit b = true := by
  unfold toDecimal at hb
  split at hb
  · rw [List.mem_singleton.mp hb]
    decide
  · obtain ⟨d, hd, rfl⟩ := List.mem_map.mp hb
    exact isdigit_ofNat (Nat.digits_lt_base (by decide) (List.mem_reverse.mp hd))

theorem not_mem_toDecimal {n : Nat} {b : Byte} (hb : isdigit b = false) : b ∉ toDecimal n := by
  intro hm
  rw [isdigit_of_mem_toDecimal hm] at hb
  cases hb

theorem toDecimal_ne_nil (n : Nat) : toDecimal n ≠ [] := by
  unfold toDecimal
  split
  · exact List.cons_ne_nil _ _
  · rename_i hn
    intro h
    rw [List.map_eq_nil_iff, List.reverse_eq_nil_iff, Nat.digits_eq_nil_iff_eq_zero] at h
    exact hn h

theorem toNat_sub_of_digit {d : Nat} (h : d < 10) : (UInt8.ofNat (48 + d)).toNat - 48 = d := by
  rw [UInt8.toNat_ofNat']
  omega

/-- The fold of `digitsValue`, from the last digit on. -/
theorem digitsValue_map_reverse {ds : List Nat} (h : ∀ d ∈ ds, d < 10) :
    digitsValue (ds.reverse.map fun d => UInt8.ofNat (48 + d)) = Nat.ofDigits 10 ds := by
  induction ds with
  | nil => rfl
  | cons d ds ih =>
    have hd := toNat_sub_of_digit (h d (List.mem_cons_self ..))
    have hds := ih fun d' hd' => h d' (List.mem_cons_of_mem d hd')
    rw [List.reverse_cons, List.map_append, digitsValue, List.foldl_append, ← digitsValue, hds,
      Nat.ofDigits_cons]
    show 10 * Nat.ofDigits 10 ds + ((UInt8.ofNat (48 + d)).toNat - 48) = d + 10 * Nat.ofDigits 10 ds
    omega

/-- **The digits have the value.** -/
theorem digitsValue_toDecimal (n : Nat) : digitsValue (toDecimal n) = n := by
  unfold toDecimal
  split
  · rename_i hn
    rw [hn]
    rfl
  · rw [digitsValue_map_reverse fun d hd => Nat.digits_lt_base (by decide) hd, Nat.ofDigits_digits]

/-- **`stoull` undoes `to_string`** on numbers of 64 bits. -/
theorem stoull_toDecimal {n : Nat} (h : n < 2 ^ 64) : stoull (toDecimal n) = .ok n := by
  obtain ⟨b, s, hbs⟩ := List.exists_cons_of_ne_nil (toDecimal_ne_nil n)
  have hdigit : isdigit b = true :=
    isdigit_of_mem_toDecimal (n := n) (hbs ▸ List.mem_cons_self ..)
  have hspace : (toDecimal n).dropWhile isspace = toDecimal n := by
    rw [hbs, List.dropWhile_cons_of_neg]
    unfold isdigit at hdigit
    unfold isspace
    grind
  have hsign : takeSign (toDecimal n) = (false, toDecimal n) := by
    rw [hbs]
    unfold isdigit at hdigit
    unfold takeSign
    split
    · rename_i heq
      cases heq
      cases hdigit
    · rename_i heq
      cases heq
      cases hdigit
    · rfl
  have hall : (toDecimal n).takeWhile isdigit = toDecimal n :=
    List.takeWhile_eq_self_iff.mpr fun _ hb => isdigit_of_mem_toDecimal hb
  unfold stoull
  rw [hspace, hsign]
  simp only [hall, if_neg (toDecimal_ne_nil n), digitsValue_toDecimal, Bool.false_eq_true, if_false]
  rw [if_neg (by omega)]

end HttpServer
