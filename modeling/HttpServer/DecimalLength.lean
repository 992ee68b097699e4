/-
  Decimal lengths — which texts behind `content-length:` are taken for a number.

  1. **Program** — `parse` strips leading blanks from the value and hands the rest to `std::stoull`,
     whose exception is the only check of the text.

  2. **What `stoull` reads** (`ReadsAs`, `stoull_eq_ok_iff`) — white space of any kind, an optional
     sign, digits, and then anything that does not go on with a digit; a minus sign negates modulo
     2^64.

  3. **Specification** (`OnlyDecimal`) — a value that is not, less blanks at both ends, a string of
     digits is not accepted, and the body of an accepted request has the size its digits denote.

  4. **Bridge** (`onlyDecimal_iff`) — a string of digits reads as the number it denotes
     (`readsAs_of_isDecimal`), so what is left is the other values that `stoull` reads.
-/
import HttpServer.Acceptance
import HttpServer.Decimal

namespace HttpServer

open ListSearch

/-! ## What `stoull` reads -/

/-- The sign in front of the digits, and whether it is a minus. -/
inductive Sign : Bytes → Bool → Prop
  | none : Sign [] false
  | plus : Sign [43] false
  | minus : Sign [45] true

/-- `s` reads white space, a sign, digits, and what does not go on with a digit. -/
structure Numeral (s : Bytes) (negative : Bool) (digits : Bytes) : Prop where
  text : ∃ spaces sign rest, s = spaces ++ (sign ++ (digits ++ rest)) ∧
    (∀ b ∈ spaces, isspace b = true) ∧ Sign sign negative ∧ ∀ b t, rest = b :: t → isdigit b = false
  decimal : IsDecimal digits

/-- The number in `s`: that of its digits, if 64 bits hold it, or 2^64 less that. -/
def ReadsAs (s : Bytes) (n : Nat) : Prop :=
  ∃ negative digits, Numeral s negative digits ∧ digitsValue digits < 2 ^ 64 ∧
    n = if negative then (2 ^ 64 - digitsValue digits) % 2 ^ 64 else digitsValue digits

theorem takeSign_split (s : Bytes) :
    ∃ sign, s = sign ++ (takeSign s).2 ∧ Sign sign (takeSign s).1 := by
  unfold takeSign
  split
  · exact ⟨[45], rfl, .minus⟩
  · exact ⟨[43], rfl, .plus⟩
  · exact ⟨[], rfl, .none⟩

theorem not_isspace_of_isdigit {b : Byte} (h : isdigit b = true) : isspace b = false := by
  unfold isdigit at h
  unfold isspace
  grind

/-- A sign is taken off a text that goes on with a digit. -/
theorem takeSign_append {sign : Bytes} {negative : Bool} (h : Sign sign negative) {d : Byte}
    (hd : isdigit d = true) (t : Bytes) : takeSign (sign ++ d :: t) = (negative, d :: t) := by
  cases h with
  | plus => rfl
  | minus => rfl
  | none =>
    rw [List.nil_append]
    unfold takeSign
    split
    · rename_i heq
      cases heq
      cases hd
    · rename_i heq
      cases heq
      cases hd
    · rfl

/-- White space in front of a sign and a digit is skipped. -/
theorem dropWhile_isspace_append {spaces sign : Bytes} {negative : Bool}
    (hspaces : ∀ b ∈ spaces, isspace b = true) (h : Sign sign negative) {d : Byte}
    (hd : isdigit d = true) (t : Bytes) :
    (spaces ++ (sign ++ d :: t)).dropWhile isspace = sign ++ d :: t := by
  rw [List.dropWhile_append_of_pos hspaces]
  cases h with
  | plus => rfl
  | minus => rfl
  | none =>
    rw [List.nil_append, List.dropWhile_cons_of_neg (by simp [not_isspace_of_isdigit hd])]

theorem takeWhile_isdigit_append {digits rest : Bytes} (hdigits : ∀ b ∈ digits, isdigit b = true)
    (hrest : ∀ b t, rest = b :: t → isdigit b = false) :
    (digits ++ rest).takeWhile isdigit = digits := by
  rw [List.takeWhile_append_of_pos hdigits]
  cases rest with
  | nil => exact List.append_nil digits
  | cons b t =>
    rw [List.takeWhile_cons_of_neg (by simp [hrest b t rfl]), List.append_nil]

/-- `stoull` on a numeral. -/
theorem Numeral.stoull_eq {s digits : Bytes} {negative : Bool} (h : Numeral s negative digits) :
    stoull s =
      if 2 ^ 64 ≤ digitsValue digits then .error .outOfRange
      else if negative then .ok ((2 ^ 64 - digitsValue digits) % 2 ^ 64)
      else .ok (digitsValue digits) := by
  obtain ⟨⟨spaces, sign, rest, rfl, hspaces, hsign, hrest⟩, hne, hdigits⟩ := h
  obtain ⟨d, ds, rfl⟩ := List.exists_cons_of_ne_nil hne
  have hd : isdigit d = true := hdigits d (List.mem_cons_self ..)
  have hskip := dropWhile_isspace_append hspaces hsign hd (ds ++ rest)
  have htake := takeSign_append hsign hd (ds ++ rest)
  have hspan := takeWhile_isdigit_append hdigits hrest
  rw [List.cons_append] at hspan ⊢
  unfold stoull
  simp only [hskip, htake, hspan, hne, if_false]

/-- **`std::stoull` returns a number exactly on the texts that read as one.** -/
theorem stoull_eq_ok_iff {s : Bytes} {n : Nat} : stoull s = .ok n ↔ ReadsAs s n := by
  constructor
  · intro h
    obtain ⟨sign, hsplit, hsign⟩ := takeSign_split (s.dropWhile isspace)
    unfold stoull at h
    simp only at h
    generalize takeSign (s.dropWhile isspace) = signed at hsplit hsign h
    obtain ⟨negative, u⟩ := signed
    simp only at hsplit hsign h
    by_cases hne : u.takeWhile isdigit = []
    · rw [if_pos hne] at h
      cases h
    · rw [if_neg hne] at h
      split at h
      · cases h
      · rename_i hlt
        refine ⟨negative, u.takeWhile isdigit, ⟨⟨s.takeWhile isspace, sign, u.dropWhile isdigit, ?_,
          ?_, hsign, ?_⟩, hne, ?_⟩, Nat.not_le.mp hlt, ?_⟩
        · rw [List.takeWhile_append_dropWhile, ← hsplit, List.takeWhile_append_dropWhile]
        · exact fun b hb => List.mem_takeWhile_imp hb
        · intro b t hb
          have hhead := List.head_dropWhile_not isdigit (l := u)
            (by rw [hb]; exact List.cons_ne_nil b t)
          simpa [hb] using hhead
        · exact fun b hb => List.mem_takeWhile_imp hb
        · cases negative <;> exact (Except.ok.inj h).symm
  · rintro ⟨negative, digits, hnumeral, hlt, rfl⟩
    rw [hnumeral.stoull_eq, if_neg (Nat.not_le.mpr hlt)]
    cases negative <;> rfl

/-! ## Values that are decimal -/

theorem isspace_of_isBlank {b : Byte} (h : isBlank b = true) : isspace b = true := by
  simp only [isBlank, blanks, List.contains_cons, List.contains_nil, Bool.or_false, Bool.or_eq_true,
    beq_iff_eq] at h
  rcases h with rfl | rfl <;> rfl

theorem not_isdigit_of_isBlank {b : Byte} (h : isBlank b = true) : isdigit b = false := by
  simp only [isBlank, blanks, List.contains_cons, List.contains_nil, Bool.or_false, Bool.or_eq_true,
    beq_iff_eq] at h
  rcases h with rfl | rfl <;> rfl

/-- A decimal value is a numeral: blanks, its digits, and blanks. -/
theorem numeral_of_isDecimal {v : Bytes} (h : IsDecimal (stripBlanks v)) :
    Numeral v false (stripBlanks v) := by
  refine ⟨⟨v.takeWhile isBlank, [], (v.dropWhile isBlank).rtakeWhile isBlank, ?_, ?_, .none, ?_⟩, h⟩
  · rw [List.nil_append, stripBlanks, List.rdropWhile_append_rtakeWhile,
      List.takeWhile_append_dropWhile]
  · exact fun b hb => isspace_of_isBlank (List.mem_takeWhile_imp hb)
  · intro b t hb
    exact not_isdigit_of_isBlank (List.mem_rtakeWhile_imp (hb ▸ List.mem_cons_self ..))

/-- **A decimal value reads as the number it denotes**, and as no other. -/
theorem readsAs_of_isDecimal {v : Bytes} {n : Nat} (h : IsDecimal (stripBlanks v))
    (hn : ReadsAs v n) : n = digitsValue (stripBlanks v) := by
  rw [← stoull_eq_ok_iff, (numeral_of_isDecimal h).stoull_eq] at hn
  split at hn
  · cases hn
  · exact (Except.ok.inj hn).symm

/-! ## The specification -/

/-- `parse` hands the text `v` to `stoull`, if it gets that far. -/
def LengthText (raw v : Bytes) : Prop :=
  ∃ headerEnd, find crlfcrlf raw = some headerEnd ∧
    locateLength (raw.take (headerEnd + 4)) = .value v

/-- A length that is no decimal number is not accepted, and the body of an accepted request has the
    size that its length denotes. -/
def OnlyDecimal (maxHeaderSize maxBodySize : Nat) (raw : Bytes) : Prop :=
  ∀ v, LengthText raw v →
    (¬ IsDecimal (stripBlanks v) → (parse raw maxHeaderSize maxBodySize).error ≠ .none) ∧
      ((parse raw maxHeaderSize maxBodySize).error = .none →
        (parse raw maxHeaderSize maxBodySize).body.length = digitsValue (stripBlanks v))

/-- `parse` finds no fault with `raw`, for all that its value reads as a number. -/
def AcceptsNumber (maxHeaderSize maxBodySize : Nat) (raw : Bytes) (headerEnd : Nat) (v : Bytes) :
    Prop :=
  headerEnd + 4 ≤ maxHeaderSize ∧ IsRequestLine (firstLine (raw.take headerEnd)) ∧
    ∃ n, ReadsAs v n ∧ n ≤ maxBodySize ∧ n ≤ (raw.drop (headerEnd + 4)).length

/-- **When only decimal lengths are accepted.**  For every byte string and all limits: the
    specification holds exactly when the value, where there is one, is a decimal number between
    blanks, or the request is refused for its header section, or because the value does not begin with
    a number, or with one that exceeds a limit or the bytes that are there. -/
theorem onlyDecimal_iff (raw : Bytes) (maxHeaderSize maxBodySize : Nat) :
    OnlyDecimal maxHeaderSize maxBodySize raw ↔
      ∀ headerEnd, find crlfcrlf raw = some headerEnd →
        ∀ v, locateLength (raw.take (headerEnd + 4)) = .value v →
          IsDecimal (stripBlanks v) ∨
            ¬ AcceptsNumber maxHeaderSize maxBodySize raw headerEnd v := by
  cases hfind : find crlfcrlf raw with
  | none =>
    refine iff_of_true (fun v hv => ?_) (fun headerEnd h => by cases h)
    obtain ⟨headerEnd, h, -⟩ := hv
    rw [hfind] at h
    cases h
  | some headerEnd =>
    obtain ⟨H, body, rfl, hend, hhead, htake, hdrop⟩ := exists_cut hfind
    simp only [OnlyDecimal, LengthText, hfind, Option.some.injEq, forall_eq', exists_eq_left', htake]
    refine forall_congr' fun v => forall_congr' fun hv => ?_
    have hlength : ∀ n, LengthIs (locateLength H.bytes) n ↔ ReadsAs v n := by
      intro n
      simp only [LengthIs, hv, Located.value.injEq, exists_eq_left', stoull_eq_ok_iff]
    have hm : Mentions H.bytes := H.mentions_of_locateLength hv
    have haccepts : (parse (H.bytes ++ body) maxHeaderSize maxBodySize).error = .none ↔
        AcceptsNumber maxHeaderSize maxBodySize (H.bytes ++ body) headerEnd v := by
      simp only [H.parse_error_none_iff, AcceptsNumber, HeaderSection.Fits,
        HeaderSection.LengthFits, hend, hhead, hlength, hm, true_implies, and_assoc]
      rw [← hend, hdrop]
    rw [ne_eq, haccepts]
    by_cases hdecimal : IsDecimal (stripBlanks v)
    · refine iff_of_true ⟨fun h => absurd hdecimal h, fun h => ?_⟩ (Or.inl hdecimal)
      obtain ⟨hsize, hline, n, hn, hmax, hlen⟩ := h
      rw [hend] at hsize
      rw [hhead] at hline
      rw [hdrop] at hlen
      rw [H.parse_of_fits_of_lengthIs ⟨hsize, hline⟩ ((hlength n).mpr hn) hmax hlen,
        ← readsAs_of_isDecimal hdecimal hn]
      show (body.take n).length = n
      rw [List.length_take, Nat.min_eq_left hlen]
    · constructor
      · exact fun h => Or.inr (h.1 hdecimal)
      · rintro (h | h)
        · exact absurd h hdecimal
        · exact ⟨fun _ => h, fun hok => absurd hok h⟩

/-- A sign, another sign that negates modulo 2^64, and trailing text are all accepted. -/
theorem signed_length_is_accepted :
    ¬ OnlyDecimal 65536 1048576 (str "POST / HTTP/1.1\r\nContent-Length: +3\r\n\r\nabc") ∧
      ¬ OnlyDecimal 65536 1048576
        (str "POST / HTTP/1.1\r\nContent-Length: -18446744073709551613\r\n\r\nabc") ∧
      ¬ OnlyDecimal 65536 1048576 (str "POST / HTTP/1.1\r\nContent-Length: 3, 5\r\n\r\nabcde") := by
  refine ⟨fun h => ?_, fun h => ?_, fun h => ?_⟩
  · exact (h (str "+3") ⟨35, by decide, by decide⟩).1 (by decide) (by decide +kernel)
  · exact (h (str "-18446744073709551613") ⟨54, by decide +kernel, by decide +kernel⟩).1 (by decide)
      (by decide +kernel)
  · exact (h (str "3, 5") ⟨37, by decide, by decide⟩).1 (by decide) (by decide +kernel)

end HttpServer
