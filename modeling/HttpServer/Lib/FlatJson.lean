/-
  Flat JSON — objects whose members are texts without escapes and numbers.

  1. **Program** — `read` takes a text apart as the grammar says: blanks between the tokens, names and
     texts in quotes, a number up to the first byte that cannot be part of one.  It gives the members
     in their order.

  2. **Writing** — `write` joins members by commas, with the blanks of a `Layout` around them.

  3. **Round trip (`read_write`)** — what is written in any layout is read back, member by member.
     One lemma for each token says that it ends where it was put.

  4. **Numbers (`isNumber_append`)** — digits, with a fraction or an exponent behind them and a minus
     in front of them or not, are a number.
-/
import Mathlib.Data.List.TakeWhile

namespace FlatJson

/-! ## Bytes and numbers -/

/-- A blank of the grammar: a space, a tab, a line feed or a carriage return. -/
def isBlank (b : UInt8) : Bool := b = 32 || b = 9 || b = 10 || b = 13

/-- A decimal digit. -/
def isDigit (b : UInt8) : Bool := 48 ≤ b && b ≤ 57

/-- The bytes that numbers are made of. -/
def isNumberByte (b : UInt8) : Bool :=
  isDigit b || b = 43 || b = 45 || b = 46 || b = 69 || b = 101

/-- A byte of a text that stands for itself. -/
def isPlainByte (b : UInt8) : Bool := 32 ≤ b && b ≠ 34 && b ≠ 92

/-- The text behind its first byte, where that is one of `signs`. -/
def dropSign (signs s : List UInt8) : List UInt8 :=
  match s with
  | [] => []
  | b :: rest => if b ∈ signs then rest else s

/-- An exponent, or nothing. -/
def isExponent : List UInt8 → Bool
  | [] => true
  | b :: rest => (b = 69 || b = 101) && dropSign [43, 45] rest ≠ [] &&
      (dropSign [43, 45] rest).all isDigit

/-- A fraction and an exponent, or less. -/
def isFraction : List UInt8 → Bool
  | [] => true
  | b :: rest =>
    if b = 46 then rest.takeWhile isDigit ≠ [] && isExponent (rest.dropWhile isDigit)
    else isExponent (b :: rest)

/-- The digits in front of them: no zero before another digit. -/
def isWhole (s : List UInt8) : Bool := s ≠ [] && (s.head? ≠ some 48 || s.length = 1)

/-- The text is a number. -/
def isNumber (s : List UInt8) : Bool :=
  s.all isNumberByte && isWhole ((dropSign [45] s).takeWhile isDigit) &&
    isFraction ((dropSign [45] s).dropWhile isDigit)

/-! ## Reading -/

/-- A value: a number, by its text, or a text without escapes. -/
inductive Value
  | number (numeral : List UInt8)
  | quoted (chars : List UInt8)
  deriving DecidableEq, Repr

/-- A name and its value. -/
abbrev Member := List UInt8 × Value

/-- The text behind the blanks in front of it. -/
def skipBlanks (s : List UInt8) : List UInt8 := s.dropWhile isBlank

/-- A text up to its closing quote, and what follows. -/
def readText (s : List UInt8) : Option (List UInt8 × List UInt8) :=
  match s.dropWhile isPlainByte with
  | [] => none
  | b :: rest => if b = 34 then some (s.takeWhile isPlainByte, rest) else none

/-- The value that a text begins with, and what follows.  A number is as long as its bytes are bytes
    of numbers, and all of them have to be one. -/
def readValue : List UInt8 → Option (Value × List UInt8)
  | [] => none
  | b :: s =>
    if b = 34 then (readText s).map fun r => (.quoted r.1, r.2)
    else if isNumber ((b :: s).takeWhile isNumberByte) then
      some (.number ((b :: s).takeWhile isNumberByte), (b :: s).dropWhile isNumberByte)
    else none

/-- The next byte behind blanks, if it is this one. -/
def readByte (b : UInt8) (s : List UInt8) : Option (List UInt8) :=
  match skipBlanks s with
  | [] => none
  | b' :: rest => if b' = b then some rest else none

/-- `"name": value`. -/
def readMember (s : List UInt8) : Option (Member × List UInt8) := do
  let s ← readByte 34 s
  let (name, s) ← readText s
  let s ← readByte 58 s
  let (value, s) ← readValue (skipBlanks s)
  some ((name, value), s)

/-- The members up to the closing bracket; no more of them than the first argument. -/
def readMembers : Nat → List UInt8 → Option (List Member × List UInt8)
  | 0, _ => none
  | n + 1, s =>
    match readMember s with
    | none => none
    | some (member, s) =>
      match readByte 125 s with
      | some rest => some ([member], rest)
      | none =>
        match readByte 44 s with
        | none => none
        | some s => (readMembers n s).map fun r => (member :: r.1, r.2)

/-- The members of an object with at least one. -/
def read (s : List UInt8) : Option (List Member) :=
  match readByte 123 s with
  | none => none
  | some rest =>
    match readMembers rest.length rest with
    | some (members, behind) => if behind.all isBlank then some members else none
    | none => none

/-! ## Writing -/

/-- The blanks in front of a name, behind a colon and behind the last value. -/
structure Layout where
  before : List UInt8
  behind : List UInt8
  last : List UInt8
  before_blank : before.all isBlank = true
  behind_blank : behind.all isBlank = true
  last_blank : last.all isBlank = true

/-- The text of a value. -/
def Value.write : Value → List UInt8
  | .number numeral => numeral
  | .quoted chars => 34 :: (chars ++ [34])

/-- The text of a member, with the blanks of the layout. -/
def writeMember (l : Layout) (m : Member) : List UInt8 :=
  l.before ++ 34 :: (m.1 ++ 34 :: 58 :: (l.behind ++ m.2.write))

/-- The members with commas between them, and the closing bracket. -/
def writeMembers (l : Layout) : List Member → List UInt8
  | [] => []
  | [m] => writeMember l m ++ l.last ++ [125]
  | m :: m' :: ms => writeMember l m ++ 44 :: writeMembers l (m' :: ms)

/-- The object with these members. -/
def write (l : Layout) (members : List Member) : List UInt8 := 123 :: writeMembers l members

/-- A value that can be written. -/
def Value.ok : Value → Bool
  | .number numeral => isNumber numeral
  | .quoted chars => chars.all isPlainByte

/-- A member that can be written. -/
def Member.ok (m : Member) : Bool := m.1.all isPlainByte && m.2.ok

/-- In members with names of their own, each is found under its name. -/
theorem lookup_of_mem {members : List Member} (hnodup : (members.map Prod.fst).Nodup)
    {name : List UInt8} {value : Value} (h : (name, value) ∈ members) :
    members.lookup name = some value := by
  induction members with
  | nil => cases h
  | cons m ms ih =>
    obtain ⟨hm, hms⟩ := List.nodup_cons.mp hnodup
    rcases List.mem_cons.mp h with rfl | hrest
    · exact List.lookup_cons_self
    · have hne : name ≠ m.1 := fun heq => hm (heq ▸ List.mem_map_of_mem hrest)
      obtain ⟨name', value'⟩ := m
      rw [List.lookup_cons, beq_false_of_ne hne]
      exact ih hms hrest

/-! ## Numbers -/

theorem takeWhile_digits {whole tail : List UInt8} (hwhole : whole.all isDigit = true)
    (htail : ∀ b ∈ tail.head?, isDigit b = false) :
    (whole ++ tail).takeWhile isDigit = whole ∧ (whole ++ tail).dropWhile isDigit = tail := by
  have hall : ∀ b ∈ whole, isDigit b = true := by simpa using hwhole
  rw [List.takeWhile_append_of_pos hall, List.dropWhile_append_of_pos hall]
  cases tail with
  | nil => exact ⟨List.append_nil _, rfl⟩
  | cons b tail =>
    have hb : ¬ isDigit b = true := by simp [htail b rfl]
    rw [List.takeWhile_cons_of_neg hb, List.dropWhile_cons_of_neg hb]
    exact ⟨List.append_nil _, rfl⟩

theorem all_isNumberByte {digits : List UInt8} (h : digits.all isDigit = true) :
    digits.all isNumberByte = true := by
  rw [List.all_eq_true]
  intro b hb
  simp [isNumberByte, List.all_eq_true.mp h b hb]

/-- An exponent: its letter, a sign or none, and digits. -/
theorem isExponent_cons {e : List UInt8} (h : isExponent e = true) (hne : e ≠ []) :
    ∃ b rest, e = b :: rest ∧ (b = 69 ∨ b = 101) ∧ rest.all isNumberByte = true := by
  cases e with
  | nil => exact absurd rfl hne
  | cons b rest =>
    simp only [isExponent, Bool.and_eq_true, Bool.or_eq_true, decide_eq_true_eq] at h
    refine ⟨b, rest, rfl, h.1.1, ?_⟩
    cases rest with
    | nil => rfl
    | cons sign digits =>
      have hdigits := h.2
      rw [dropSign] at hdigits
      split at hdigits
      · rename_i hsign
        have hsign' : sign = 43 ∨ sign = 45 := by simpa using hsign
        rw [List.all_cons, all_isNumberByte hdigits, Bool.and_true]
        rcases hsign' with rfl | rfl <;> rfl
      · exact all_isNumberByte hdigits

theorem isExponent_of_sign {sign : UInt8} {digits : List UInt8} (hsign : sign ∈ [43, 45])
    (h : digits.all isDigit = true) (hne : digits ≠ []) :
    isExponent (101 :: sign :: digits) = true := by
  rw [isExponent, dropSign, if_pos hsign, h]
  simpa using hne

theorem isFraction_of_isExponent {e : List UInt8} (h : isExponent e = true) :
    isFraction e = true := by
  by_cases hne : e = []
  · rw [hne]
    rfl
  · obtain ⟨b, rest, rfl, hb, -⟩ := isExponent_cons h hne
    have hpoint : b ≠ 46 := by rcases hb with rfl | rfl <;> decide
    rwa [isFraction, if_neg hpoint]

/-- A point, digits and an exponent or none. -/
theorem isFraction_append {digits exponent : List UInt8} (h : digits.all isDigit = true)
    (hne : digits ≠ []) (hexponent : isExponent exponent = true) :
    isFraction (46 :: (digits ++ exponent)) = true := by
  have hhead : ∀ b ∈ exponent.head?, isDigit b = false := by
    intro b hb
    have hnonempty : exponent ≠ [] := by
      rintro rfl
      cases hb
    obtain ⟨c, rest, rfl, hc, -⟩ := isExponent_cons hexponent hnonempty
    cases hb
    rcases hc with rfl | rfl <;> decide
  obtain ⟨htake, hdrop⟩ := takeWhile_digits h hhead
  rw [isFraction, if_pos rfl, htake, hdrop, hexponent]
  simpa using hne

/-- What follows the digits of a number begins with no digit and has its bytes. -/
theorem isFraction_bytes {tail : List UInt8} (h : isFraction tail = true) :
    tail.all isNumberByte = true ∧ ∀ b ∈ tail.head?, isDigit b = false := by
  have hexponent : ∀ {e : List UInt8}, isExponent e = true →
      e.all isNumberByte = true ∧ ∀ b ∈ e.head?, isDigit b = false := by
    intro e he
    by_cases hne : e = []
    · rw [hne]
      exact ⟨rfl, fun b hb => by cases hb⟩
    · obtain ⟨b, rest, rfl, hb, hrest⟩ := isExponent_cons he hne
      rw [List.all_cons, hrest, Bool.and_true]
      refine ⟨by rcases hb with rfl | rfl <;> rfl, fun c hc => ?_⟩
      cases hc
      rcases hb with rfl | rfl <;> decide
  cases tail with
  | nil => exact ⟨rfl, fun b hb => by cases hb⟩
  | cons b rest =>
    rw [isFraction] at h
    split at h
    · rename_i hpoint
      subst hpoint
      rw [Bool.and_eq_true] at h
      have hdigits : (rest.takeWhile isDigit).all isDigit = true :=
        List.all_eq_true.mpr fun c hc => List.mem_takeWhile_imp hc
      rw [← List.takeWhile_append_dropWhile (p := isDigit) (l := rest), List.all_cons,
        List.all_append, all_isNumberByte hdigits, (hexponent h.2).1]
      exact ⟨rfl, fun c hc => by cases hc; decide⟩
    · exact hexponent h

/-- **Digits, and what may follow them.** -/
theorem isNumber_append {whole tail : List UInt8} (hdigits : whole.all isDigit = true)
    (hwhole : isWhole whole = true) (hfraction : isFraction tail = true) :
    isNumber (whole ++ tail) = true ∧ isNumber (45 :: (whole ++ tail)) = true := by
  obtain ⟨hbytes, hhead⟩ := isFraction_bytes hfraction
  have hsign : dropSign [45] (whole ++ tail) = whole ++ tail := by
    cases whole with
    | nil => cases hwhole
    | cons b whole =>
      rw [List.all_cons, Bool.and_eq_true] at hdigits
      have hne : b ≠ 45 := by
        rintro rfl
        exact absurd hdigits.1 (by decide)
      rw [List.cons_append, dropSign, if_neg (by simpa using hne)]
  have hminus : dropSign [45] (45 :: (whole ++ tail)) = whole ++ tail := by
    rw [dropSign, if_pos (List.mem_singleton_self 45)]
  have hall : (whole ++ tail).all isNumberByte = true := by
    rw [List.all_append, hbytes, Bool.and_true]
    exact all_isNumberByte hdigits
  obtain ⟨htake, hdrop⟩ := takeWhile_digits hdigits hhead
  constructor
  · simp only [isNumber, hsign, htake, hdrop, hall, hwhole, hfraction, Bool.and_self]
  · simp only [isNumber, hminus, htake, hdrop, List.all_cons, hall, hwhole, hfraction]
    decide

/-! ## Each token ends where it was put -/

variable {s rest : List UInt8} {b : UInt8}

theorem takeWhile_append_cons {p : UInt8 → Bool} (hs : s.all p = true) (hb : p b = false) :
    (s ++ b :: rest).takeWhile p = s := by
  rw [List.takeWhile_append_of_pos (by simpa using hs), List.takeWhile_cons_of_neg (by simp [hb]),
    List.append_nil]

theorem dropWhile_append_cons {p : UInt8 → Bool} (hs : s.all p = true) (hb : p b = false) :
    (s ++ b :: rest).dropWhile p = b :: rest := by
  rw [List.dropWhile_append_of_pos (by simpa using hs), List.dropWhile_cons_of_neg (by simp [hb])]

theorem readByte_append (hs : s.all isBlank = true) (hb : isBlank b = false) :
    readByte b (s ++ b :: rest) = some rest := by
  rw [readByte, skipBlanks, dropWhile_append_cons hs hb]
  exact if_pos rfl

theorem readByte_append_ne {b' : UInt8} (hs : s.all isBlank = true) (hb : isBlank b = false)
    (hne : b ≠ b') : readByte b' (s ++ b :: rest) = none := by
  rw [readByte, skipBlanks, dropWhile_append_cons hs hb]
  exact if_neg hne

theorem readText_append (hs : s.all isPlainByte = true) :
    readText (s ++ 34 :: rest) = some (s, rest) := by
  have hquote : isPlainByte 34 = false := by decide
  rw [readText, dropWhile_append_cons hs hquote, takeWhile_append_cons hs hquote]
  exact if_pos rfl

/-- No token of a number is a quote or a blank. -/
theorem isNumber_cons {numeral : List UInt8} (h : isNumber numeral = true) :
    ∃ b t, numeral = b :: t ∧ b ≠ 34 ∧ isBlank b = false := by
  cases numeral with
  | nil => exact absurd h (by decide)
  | cons b t =>
    refine ⟨b, t, rfl, ?_⟩
    simp only [isNumber, List.all_cons, Bool.and_eq_true] at h
    have hb := h.1.1.1
    unfold isNumberByte isDigit at hb
    unfold isBlank
    grind

/-- **A value ends at a byte that is part of no number.** -/
theorem readValue_write {v : Value} (hv : v.ok = true) (hb : isNumberByte b = false) :
    readValue (v.write ++ b :: rest) = some (v, b :: rest) := by
  cases v with
  | quoted chars =>
    have hchars : chars.all isPlainByte = true := hv
    show readValue (34 :: (chars ++ [34]) ++ b :: rest) = _
    rw [List.cons_append, List.append_assoc, readValue, if_pos rfl, List.singleton_append,
      readText_append hchars]
    rfl
  | number numeral =>
    have hnumber : isNumber numeral = true := hv
    obtain ⟨c, t, rfl, hne, -⟩ := isNumber_cons hnumber
    have hall : (c :: t).all isNumberByte = true := by
      simp only [isNumber, Bool.and_eq_true] at hnumber
      exact hnumber.1.1
    show readValue ((c :: t) ++ b :: rest) = _
    have htake : (c :: t ++ b :: rest).takeWhile isNumberByte = c :: t :=
      takeWhile_append_cons hall hb
    have hdrop : (c :: t ++ b :: rest).dropWhile isNumberByte = b :: rest :=
      dropWhile_append_cons hall hb
    rw [List.cons_append] at htake hdrop ⊢
    rw [readValue, if_neg hne, htake, if_pos hnumber, hdrop]

theorem skipBlanks_write {l : List UInt8} (hl : l.all isBlank = true) {v : Value}
    (hv : v.ok = true) : skipBlanks (l ++ (v.write ++ rest)) = v.write ++ rest := by
  rw [skipBlanks, List.dropWhile_append_of_pos (by simpa using hl)]
  cases v with
  | quoted chars => rfl
  | number numeral =>
    obtain ⟨c, t, rfl, -, hblank⟩ := isNumber_cons hv
    show ((c :: t) ++ rest).dropWhile isBlank = _
    rw [List.cons_append, List.dropWhile_cons_of_neg (by simp [hblank])]
    rfl

/-- **A member is read back**, up to the byte behind its value. -/
theorem readMember_write {l : Layout} {m : Member} (hm : m.ok = true)
    (hb : isNumberByte b = false) :
    readMember (writeMember l m ++ b :: rest) = some (m, b :: rest) := by
  obtain ⟨name, value⟩ := m
  obtain ⟨hname, hvalue⟩ := Bool.and_eq_true_iff.mp hm
  have htext : writeMember l (name, value) ++ b :: rest =
      l.before ++ 34 :: (name ++ 34 :: 58 :: (l.behind ++ (value.write ++ b :: rest))) := by
    simp [writeMember]
  have hcolon : readByte 58 (58 :: (l.behind ++ (value.write ++ b :: rest))) =
      some (l.behind ++ (value.write ++ b :: rest)) :=
    readByte_append (s := []) rfl (by decide)
  rw [htext, readMember, readByte_append l.before_blank (by decide)]
  simp only [Option.bind_eq_bind, Option.bind_some]
  rw [readText_append hname, Option.bind_some, hcolon, Option.bind_some,
    skipBlanks_write l.behind_blank hvalue, readValue_write hvalue hb, Option.bind_some]

/-- Behind the last value come the blanks and the bracket. -/
theorem last_cons (l : Layout) (behind : List UInt8) :
    ∃ b t, l.last ++ 125 :: behind = b :: t ∧ isNumberByte b = false := by
  cases hl : l.last with
  | nil => exact ⟨125, behind, rfl, by decide⟩
  | cons b t =>
    refine ⟨b, t ++ 125 :: behind, rfl, ?_⟩
    have hblank := l.last_blank
    rw [hl, List.all_cons, Bool.and_eq_true] at hblank
    have hb := hblank.1
    unfold isBlank at hb
    unfold isNumberByte isDigit
    grind

/-- **Members are read back**, if there is room for so many. -/
theorem readMembers_write (l : Layout) {members : List Member} (hne : members ≠ [])
    (h : ∀ m ∈ members, Member.ok m = true) {n : Nat} (hn : members.length ≤ n)
    (behind : List UInt8) :
    readMembers n (writeMembers l members ++ behind) = some (members, behind) := by
  induction members generalizing n with
  | nil => exact absurd rfl hne
  | cons m ms ih =>
    have hm := h m (List.mem_cons_self ..)
    cases n with
    | zero => cases hn
    | succ n =>
      cases ms with
      | nil =>
        obtain ⟨b, t, hlast, hb⟩ := last_cons l behind
        have hclose : readByte 125 (l.last ++ 125 :: behind) = some behind :=
          readByte_append l.last_blank (by decide)
        have htext : writeMembers l [m] ++ behind =
            writeMember l m ++ (l.last ++ 125 :: behind) := by
          simp [writeMembers]
        rw [htext, hlast, readMembers, readMember_write hm hb]
        simp only
        rw [← hlast, hclose]
      | cons m' ms =>
        have hms := ih (List.cons_ne_nil _ _) (fun x hx => h x (List.mem_cons_of_mem m hx))
          (Nat.le_of_succ_le_succ hn)
        have htext : writeMembers l (m :: m' :: ms) ++ behind =
            writeMember l m ++ 44 :: (writeMembers l (m' :: ms) ++ behind) := by
          simp [writeMembers]
        have hopen : readByte 125 (44 :: (writeMembers l (m' :: ms) ++ behind)) = none :=
          readByte_append_ne (s := []) rfl (by decide) (by decide)
        have hcomma : readByte 44 (44 :: (writeMembers l (m' :: ms) ++ behind)) =
            some (writeMembers l (m' :: ms) ++ behind) :=
          readByte_append (s := []) rfl (by decide)
        rw [htext, readMembers, readMember_write hm (by decide)]
        simp only
        rw [hopen, hcomma]
        simp only
        rw [hms, Option.map_some]

/-- Each member takes a byte at least. -/
theorem length_le_writeMembers (l : Layout) (members : List Member) :
    members.length ≤ (writeMembers l members).length := by
  induction members with
  | nil => exact Nat.zero_le _
  | cons m ms ih =>
    cases ms with
    | nil =>
      rw [writeMembers, List.length_append, List.length_append]
      exact Nat.le_add_left 1 _
    | cons m' ms =>
      simp only [writeMembers, List.length_append, List.length_cons] at ih ⊢
      omega

/-- **What is written is read back**, in every layout. -/
theorem read_write (l : Layout) {members : List Member} (hne : members ≠ [])
    (h : ∀ m ∈ members, Member.ok m = true) : read (write l members) = some members := by
  have hopen : readByte 123 (write l members) = some (writeMembers l members) :=
    readByte_append (s := []) rfl (by decide)
  have hmembers := readMembers_write l hne h (length_le_writeMembers l members) []
  rw [List.append_nil] at hmembers
  rw [read, hopen]
  simp only
  rw [hmembers]
  rfl

end FlatJson
