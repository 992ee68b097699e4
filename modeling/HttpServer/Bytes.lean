/-
  Byte strings — what the server uses of `std::string`, `<cctype>`, `std::istringstream`,
  `std::stoull` and `std::stoi`, with the behaviour of the "C" locale.

  1. **Data** — a `std::string` is a list of bytes, a position is a `Nat`, and `npos` is `none`.

  2. **Searching** — `find` and `findFrom` of `ListSearch`, at `UInt8`.

  3. **Streams** — an input stream is the list of the bytes not read yet: `getlines` is what a loop
     over `std::getline` reads, `extract` is `stream >> token`, which fails (`none`) exactly when
     the C++ stream sets `failbit`.

  4. **Numbers** — `stoull` follows `strtoull` in base 10: leading white space, an optional sign,
     digits up to the first other byte, `std::invalid_argument` without a digit,
     `std::out_of_range` past 64 bits, and negation modulo 2^64 after a minus sign.  `stoi` reads the
     same texts into an `int`.
-/
import HttpServer.Lib.ListSearch
import Mathlib.Algebra.Group.Nat.Defs

namespace HttpServer

open ListSearch (find findFrom)

/-- One `char`. -/
abbrev Byte := UInt8
/-- A `std::string`: any bytes, zero bytes among them, in no encoding. -/
abbrev Bytes := List UInt8

/-- The bytes of an ASCII literal. -/
def str (s : String) : Bytes := s.toList.map fun c => UInt8.ofNat c.toNat

/-! ## `<cctype>` -/

/-- `std::tolower` in the C locale, which the server does not change: the capital letters of ASCII
    become small ones, and every other byte stays. -/
def tolower (b : Byte) : Byte := if 65 ≤ b ∧ b ≤ 90 then b + 32 else b

/-- `std::isspace`: blank, `\t`, `\n`, `\v`, `\f`, `\r`. -/
def isspace (b : Byte) : Bool := b = 32 || (9 ≤ b && b ≤ 13)

/-- `std::isdigit`. -/
def isdigit (b : Byte) : Bool := 48 ≤ b && b ≤ 57

/-- A copy with every byte replaced by its `tolower`. -/
def lower (s : Bytes) : Bytes := s.map tolower

/-- `tolower` neither makes nor removes a byte below the letters. -/
theorem tolower_eq_iff {b c : Byte} (hc : c < 65) : tolower b = c ↔ b = c := by
  unfold tolower
  grind

@[simp] theorem lower_nil : lower [] = [] := rfl
@[simp] theorem lower_cons (b : Byte) (s : Bytes) : lower (b :: s) = tolower b :: lower s := rfl
@[simp] theorem lower_length (s : Bytes) : (lower s).length = s.length := List.length_map ..
@[simp] theorem lower_append (s t : Bytes) : lower (s ++ t) = lower s ++ lower t :=
  List.map_append ..

/-- Lower-casing keeps the positions of every byte below the letters. -/
theorem lower_getElem?_eq_iff {s : Bytes} {i : Nat} {c : Byte} (hc : c < 65) :
    (lower s)[i]? = some c ↔ s[i]? = some c := by
  rw [lower, List.getElem?_map]
  cases s[i]? with
  | none => simp
  | some b => simp [tolower_eq_iff hc]

/-! ## Cutting -/

/-- `s.substr(pos, len)`, for a `pos` inside the string: a `len` that reaches past the end stops
    there. -/
def substr (s : Bytes) (pos len : Nat) : Bytes := (s.drop pos).take len

/-- `s.find_first_not_of(set)`. -/
def findFirstNotOf (set s : Bytes) : Option Nat := s.findIdx? fun b => !set.contains b

/-- `s.find_last_not_of(set)`. -/
def findLastNotOf (set s : Bytes) : Option Nat :=
  (s.reverse.findIdx? fun b => !set.contains b).map fun k => s.length - 1 - k

/-- Space and tab. -/
def blanks : Bytes := [32, 9]

/-- The guarded cut that the server writes in several places: the value from its first byte that
    is not blank, and the value itself when there is none. -/
def skipBlanks (v : Bytes) : Bytes :=
  match findFirstNotOf blanks v with
  | some start => v.drop start
  | none => v

/-- `if (!line.empty() && line.back() == b) line.pop_back()`. -/
def popBack (b : Byte) (line : Bytes) : Bytes :=
  if line.getLast? = some b then line.dropLast else line

/-! ## Streams -/

/-- The lines that `while (std::getline(stream, line))` sees: each ends at a `\n`, which is dropped,
    or at the end of the stream, where an empty rest is no line. -/
def getlines : Bytes → List Bytes
  | [] => []
  | b :: s =>
    if b = 10 then [] :: getlines s
    else
      match getlines s with
      | [] => [[b]]
      | line :: lines => (b :: line) :: lines

/-- One `getline`: the text up to the next `\n`, then the lines behind it. -/
theorem getlines_append {line : Bytes} (h : 10 ∉ line) (s : Bytes) :
    getlines (line ++ 10 :: s) = line :: getlines s := by
  induction line with
  | nil => simp [getlines]
  | cons b line ih =>
    have hb : b ≠ 10 := fun hb => h (by rw [hb]; exact List.mem_cons_self ..)
    have hl : 10 ∉ line := fun hm => h (List.mem_cons_of_mem b hm)
    rw [List.cons_append, getlines, if_neg hb, ih hl]

/-- What stands in front of a line belongs to it. -/
theorem getlines_prefix {before s line : Bytes} {lines : List Bytes} (h : 10 ∉ before)
    (hs : getlines s = line :: lines) : getlines (before ++ s) = (before ++ line) :: lines := by
  induction before with
  | nil => exact hs
  | cons b before ih =>
    have hb : b ≠ 10 := fun hb => h (by rw [hb]; exact List.mem_cons_self ..)
    have hbefore : 10 ∉ before := fun hm => h (List.mem_cons_of_mem b hm)
    rw [List.cons_append, getlines, if_neg hb, ih hbefore]
    rfl

/-- A text with its `\n` has a first line. -/
theorem exists_getlines (s : Bytes) : ∃ line lines, getlines (s ++ [10]) = line :: lines := by
  cases s with
  | nil => exact ⟨[], [], rfl⟩
  | cons b s =>
    rw [List.cons_append, getlines]
    split
    · exact ⟨_, _, rfl⟩
    · split
      · exact ⟨_, _, rfl⟩
      · exact ⟨_, _, rfl⟩

/-- **The lines of a text that ends in `\n`, and those behind it.** -/
theorem getlines_append_lf (s rest : Bytes) :
    getlines (s ++ 10 :: rest) = getlines (s ++ [10]) ++ getlines rest := by
  induction s with
  | nil => rfl
  | cons b s ih =>
    obtain ⟨line, lines, hlines⟩ := exists_getlines s
    rw [List.cons_append, List.cons_append, getlines, getlines, ih]
    by_cases hb : b = 10
    · rw [if_pos hb, if_pos hb]
      rfl
    · rw [if_neg hb, if_neg hb, hlines]
      rfl

/-- The last line of a stream that does not end in `\n`. -/
theorem getlines_of_not_mem {line : Bytes} (h : 10 ∉ line) (hne : line ≠ []) :
    getlines line = [line] := by
  induction line with
  | nil => exact absurd rfl hne
  | cons b line ih =>
    have hb : b ≠ 10 := fun hb => h (by rw [hb]; exact List.mem_cons_self ..)
    have hl : 10 ∉ line := fun hm => h (List.mem_cons_of_mem b hm)
    cases line with
    | nil => simp [getlines, hb]
    | cons c line => rw [getlines, if_neg hb, ih hl (List.cons_ne_nil c line)]

/-- `stream >> token`: white space is skipped, and the token ends at the next white space. -/
def extract (stream : Bytes) : Option (Bytes × Bytes) :=
  match stream.dropWhile isspace with
  | [] => none
  | b :: s => some ((b :: s).takeWhile (!isspace ·), (b :: s).dropWhile (!isspace ·))

/-! ## `std::stoull` -/

/-- What `std::stoull` and `std::stoi` throw: of a text that does not begin with a number, and of a
    number that does not fit. -/
inductive ConvError
  | invalidArgument
  | outOfRange
  deriving DecidableEq, Repr

/-- The value of a string of decimal digits. -/
def digitsValue (ds : Bytes) : Nat := ds.foldl (fun n d => 10 * n + (d.toNat - 48)) 0

/-- An optional sign: whether it was a minus, and what follows it. -/
def takeSign : Bytes → Bool × Bytes
  | 45 :: s => (true, s)
  | 43 :: s => (false, s)
  | s => (false, s)

/-- `std::stoull(s)`: the number that `s` begins with behind blanks and a sign, whatever stands
    behind it.  A minus negates modulo 2^64. -/
def stoull (s : Bytes) : Except ConvError Nat :=
  let (negative, s) := takeSign (s.dropWhile isspace)
  let digits := s.takeWhile isdigit
  if digits = [] then .error .invalidArgument
  else if 2 ^ 64 ≤ digitsValue digits then .error .outOfRange
  -- `strtoull` negates in unsigned arithmetic
  else if negative then .ok ((2 ^ 64 - digitsValue digits) % 2 ^ 64)
  else .ok (digitsValue digits)

/-- `std::stoi(s)`, for an `int` of 32 bits: what is read is what `stoull` reads, and the limits are
    those of an `int`. -/
def stoi (s : Bytes) : Except ConvError Int :=
  let (negative, s) := takeSign (s.dropWhile isspace)
  let digits := s.takeWhile isdigit
  if digits = [] then .error .invalidArgument
  else
    let value : Int := if negative then -(digitsValue digits : Int) else digitsValue digits
    if value < -2147483648 ∨ 2147483647 < value then .error .outOfRange else .ok value

example : stoull (str " 42 apples") = .ok 42 := by decide
example : stoull (str "-1") = .ok 18446744073709551615 := by decide
example : stoull (str "18446744073709551616") = .error .outOfRange := by decide

end HttpServer
