/-
  The two length lookups, on a header section followed by anything.

  `parse` looks `content-length:` up in the header section, `recv_request` in its whole buffer, and
  the two search for the line end from positions one apart.  On one and the same string they agree
  (`recvLocateLength_eq`): the colon found is the last byte of the match, and a colon starts no
  CRLF.  So what can differ is the string, and everything is about where the first match lies:

    * `HeaderSection` — a byte string whose first CRLFCRLF is its end, with `exists_headerSection`
      cutting any buffer with a CRLFCRLF into its header section and the bytes behind it;
    * a match in the header section is found there whatever follows
      (`HeaderSection.locateLength_append`), and always with a line end behind it
      (`HeaderSection.locateLength_value`);
    * without one, the lookup in the whole buffer is the lookup in the bytes behind the header
      section (`HeaderSection.locateLength_append_of_absent`).
-/
import HttpServer.RecvRequest

namespace HttpServer

open ListSearch

/-! ## The searched text -/

@[simp] theorem contentLengthText_length : contentLengthText.length = 15 := rfl

theorem contentLengthText_ne_nil : contentLengthText ≠ [] := by decide

theorem cr_not_mem_contentLengthText : (13 : Byte) ∉ contentLengthText := by decide

theorem lf_not_mem_contentLengthText : (10 : Byte) ∉ contentLengthText := by decide

/-- `s` holds the text `content-length:` in some case. -/
def Mentions (s : Bytes) : Prop := contentLengthText <:+: lower s

instance (s : Bytes) : Decidable (Mentions s) :=
  inferInstanceAs (Decidable (contentLengthText <:+: lower s))

theorem find_eq_none_iff_not_mentions {s : Bytes} :
    find contentLengthText (lower s) = none ↔ ¬ Mentions s := find_eq_none_iff

theorem mentions_iff_exists_find {s : Bytes} :
    Mentions s ↔ ∃ p, find contentLengthText (lower s) = some p := by
  rw [← Option.isSome_iff_exists, find_isSome_iff]
  exact Iff.rfl

/-! ## One string: the closed form of both lookups -/

/-- Inside a match, the only colon is its last byte. -/
theorem findFrom_colon {s : Bytes} {p : Nat} (h : find contentLengthText (lower s) = some p) :
    findFrom [58] s p = some (p + 14) := by
  have hfit := find_add_length_le h
  rw [contentLengthText_length, lower_length] at hfit
  obtain ⟨-, hpre, -⟩ := find_eq_some_iff.mp h
  -- the match is the pattern byte by byte, and lower-casing moves no colon
  have hget : ∀ k, k < 15 → (lower s)[p + k]? = contentLengthText[k]? := by
    intro k hk
    rw [← List.getElem?_drop]
    obtain ⟨t, ht⟩ := hpre
    rw [← ht, List.getElem?_append_left (by rwa [contentLengthText_length])]
  have hcolon : ∀ k, k < 15 → ([58] <+: s.drop (p + k) ↔ contentLengthText[k]? = some 58) := by
    intro k hk
    rw [← hget k hk, lower_getElem?_eq_iff (by decide), ← List.head?_drop]
    cases s.drop (p + k) with
    | nil => simp
    | cons b t => simp [eq_comm]
  refine findFrom_eq_some_iff.mpr ⟨by omega, by omega, (hcolon 14 (by omega)).mpr rfl,
    fun j hpj hj hp => ?_⟩
  obtain ⟨k, rfl⟩ := Nat.exists_eq_add_of_le hpj
  have hk : ∀ k < 14, contentLengthText[k]? ≠ some 58 := by decide
  exact hk k (by omega) ((hcolon k (by omega)).mp hp)

/-- The bytes at and behind the colon of a match. -/
theorem drop_colon {s : Bytes} {p : Nat} (h : find contentLengthText (lower s) = some p) :
    s.drop (p + 14) = 58 :: s.drop (p + 15) := by
  obtain ⟨-, -, hpre, -⟩ := findFrom_eq_some_iff.mp (findFrom_colon h)
  obtain ⟨t, ht⟩ := hpre
  have htail := congrArg (List.drop 1) ht
  rw [List.drop_drop] at htail
  rw [← htail, ← ht]
  rfl

/-- The text behind a match, up to the next line end. -/
def valueBehind (s : Bytes) (p : Nat) : Located :=
  match find crlf (s.drop (p + 15)) with
  | none => .dangling
  | some e => .value (skipBlanks ((s.drop (p + 15)).take e))

/-- **The lookup of `parse` in closed form.** -/
theorem locateLength_eq (s : Bytes) :
    locateLength s =
      match find contentLengthText (lower s) with
      | none => .absent
      | some p => valueBehind s p := by
  unfold locateLength
  cases h : find contentLengthText (lower s) with
  | none => rfl
  | some p =>
    have hfit := find_add_length_le h
    rw [contentLengthText_length, lower_length] at hfit
    simp only [findFrom_colon h, valueBehind]
    rw [findFrom, if_pos (by omega), show p + 14 + 1 = p + 15 from rfl]
    cases find crlf (s.drop (p + 15)) with
    | none => rfl
    | some e =>
      simp only [Option.map_some, substr]
      rw [show e + (p + 15) - (p + 14) - 1 = e from by omega]

/-- **The two lookups agree on one string.** -/
theorem recvLocateLength_eq (s : Bytes) : recvLocateLength s = locateLength s := by
  rw [locateLength_eq]
  unfold recvLocateLength
  cases h : find contentLengthText (lower s) with
  | none => rfl
  | some p =>
    have hfit := find_add_length_le h
    rw [contentLengthText_length, lower_length] at hfit
    -- the search for the line end starts at the colon, one byte early
    have hskip : find crlf (s.drop (p + 14)) = (find crlf (s.drop (p + 15))).map (· + 1) := by
      have hne : ¬ crlf <+: 58 :: s.drop (p + 15) := by
        intro hp
        exact absurd (List.cons_prefix_cons.mp hp).1 (by decide)
      rw [drop_colon h, find, if_neg hne]
    simp only [findFrom_colon h, valueBehind]
    rw [findFrom, if_pos (by omega), hskip]
    cases find crlf (s.drop (p + 15)) with
    | none => rfl
    | some e =>
      simp only [Option.map_some, substr]
      rw [show e + 1 + (p + 14) - (p + 14) - 1 = e from by omega]

/-! ## Header sections -/

/-- A byte string whose first CRLFCRLF is its end. -/
structure HeaderSection where
  bytes : Bytes
  four_le : 4 ≤ bytes.length
  ends : find crlfcrlf bytes = some (bytes.length - 4)

/-- Every buffer with a CRLFCRLF is a header section and what follows it. -/
theorem exists_headerSection {raw : Bytes} {headerEnd : Nat}
    (h : find crlfcrlf raw = some headerEnd) :
    ∃ H : HeaderSection, H.bytes = raw.take (headerEnd + 4) ∧
      H.bytes.length = headerEnd + 4 ∧ raw = H.bytes ++ raw.drop (headerEnd + 4) := by
  have hfit : headerEnd + 4 ≤ raw.length := find_add_length_le h
  have hlen : (raw.take (headerEnd + 4)).length = headerEnd + 4 := by
    rw [List.length_take]; omega
  refine ⟨⟨raw.take (headerEnd + 4), by omega, ?_⟩, rfl, hlen,
    (List.take_append_drop (headerEnd + 4) raw).symm⟩
  rw [hlen, Nat.add_sub_cancel]
  exact find_take_of_some h (Nat.le_refl _)

namespace HeaderSection

variable (H : HeaderSection)

/-- The text before the final CRLFCRLF. -/
def head : Bytes := H.bytes.take (H.bytes.length - 4)

theorem bytes_eq : H.bytes = H.head ++ [13, 10, 13, 10] := by
  have h := find_split H.ends
  have hrest : H.bytes.drop (H.bytes.length - 4 + crlfcrlf.length) = [] := by
    rw [List.drop_eq_nil_iff]
    show H.bytes.length ≤ H.bytes.length - 4 + 4
    have := H.four_le
    omega
  rw [hrest] at h
  exact h

/-- The header end is found where it is, whatever follows. -/
theorem find_append (body : Bytes) :
    find crlfcrlf (H.bytes ++ body) = some (H.bytes.length - 4) :=
  find_append_of_some body H.ends

/-- The parts of a buffer around its first CRLFCRLF. -/
theorem cut {body : Bytes} {headerEnd : Nat}
    (hfind : find crlfcrlf (H.bytes ++ body) = some headerEnd) :
    headerEnd + 4 = H.bytes.length ∧ (H.bytes ++ body).take headerEnd = H.head ∧
      (H.bytes ++ body).take (headerEnd + 4) = H.bytes ∧
        (H.bytes ++ body).drop (headerEnd + 4) = body := by
  have hend : headerEnd + 4 = H.bytes.length := by
    have hfour := H.four_le
    rw [H.find_append, Option.some.injEq] at hfind
    omega
  refine ⟨hend, ?_, by rw [hend, List.take_left], by rw [hend, List.drop_left]⟩
  rw [List.take_append_of_le_length (by omega), head,
    show H.bytes.length - 4 = headerEnd from by omega]

/-- **`parse` reads a buffer through its header section and what follows it.** -/
theorem parse_append (body : Bytes) (maxHeaderSize maxBodySize : Nat) :
    parse (H.bytes ++ body) maxHeaderSize maxBodySize =
      if H.bytes.length > maxHeaderSize then { error := .headerTooLarge }
      else if (parseHead H.head).error ≠ .none then parseHead H.head
      else frameBody (parseHead H.head) (locateLength H.bytes) body maxBodySize := by
  obtain ⟨hend, hhead, htake, hdrop⟩ := H.cut (H.find_append body)
  simp only [parse, H.find_append body]
  rw [htake, hdrop, hhead, hend]

/-! ## Where the first match lies -/

/-- A search without line ends in the pattern sees a header section first, then what follows. -/
theorem find_lower_append (body : Bytes) :
    find contentLengthText (lower (H.bytes ++ body)) =
      match find contentLengthText (lower H.bytes) with
      | some p => some p
      | none => (find contentLengthText (lower body)).map (· + H.bytes.length) := by
  -- the last byte of the section is a separator that the pattern does not have
  have hb : lower H.bytes = lower (H.head ++ [13, 10, 13]) ++ 10 :: [] := by
    rw [H.bytes_eq]; simp [tolower]
  have hlen : H.bytes.length = (lower (H.head ++ [13, 10, 13])).length + 1 := by
    rw [H.bytes_eq]; simp
  rw [lower_append, hlen, hb, List.append_assoc, List.singleton_append,
    find_append_cons lf_not_mem_contentLengthText contentLengthText_ne_nil,
    find_append_cons lf_not_mem_contentLengthText contentLengthText_ne_nil]
  cases find contentLengthText (lower (H.head ++ [13, 10, 13])) with
  | some p => rfl
  | none => rfl

/-- A match in a header section ends before its CRLFCRLF. -/
theorem find_add_length_le_head {p : Nat}
    (h : find contentLengthText (lower H.bytes) = some p) : p + 15 ≤ H.head.length := by
  have hb : lower H.bytes = lower H.head ++ 13 :: [10, 13, 10] := by
    rw [H.bytes_eq]; simp [tolower]
  -- behind the first `\r` of the CRLFCRLF there is no room for the pattern
  have hshort : find contentLengthText [10, 13, 10] = none := by decide
  rw [hb, find_append_cons cr_not_mem_contentLengthText contentLengthText_ne_nil, hshort] at h
  cases hf : find contentLengthText (lower H.head) with
  | none => rw [hf] at h; cases h
  | some q =>
    rw [hf] at h
    cases h
    simpa using find_add_length_le hf

/-- Behind a match in a header section there is a line end, inside the section. -/
theorem exists_find_crlf {p : Nat} (h : find contentLengthText (lower H.bytes) = some p) :
    ∃ e, find crlf (H.bytes.drop (p + 15)) = some e := by
  have hp := H.find_add_length_le_head h
  rw [← Option.isSome_iff_exists, find_isSome_iff, H.bytes_eq,
    List.drop_append_of_le_length hp]
  exact ⟨H.head.drop (p + 15), [13, 10], by simp [crlf]⟩

theorem valueBehind_append {p : Nat} (h : find contentLengthText (lower H.bytes) = some p)
    (body : Bytes) : valueBehind (H.bytes ++ body) p = valueBehind H.bytes p := by
  obtain ⟨e, he⟩ := H.exists_find_crlf h
  have hp := H.find_add_length_le_head h
  have hlen : p + 15 ≤ H.bytes.length := by
    rw [H.bytes_eq, List.length_append]; omega
  have hfit := find_add_length_le he
  unfold valueBehind
  rw [List.drop_append_of_le_length hlen, find_append_of_some body he, he]
  simp only
  rw [List.take_append_of_le_length (by omega)]

/-- **A match in the header section decides the lookup in every extension.** -/
theorem locateLength_append (hm : Mentions H.bytes) (body : Bytes) :
    locateLength (H.bytes ++ body) = locateLength H.bytes := by
  obtain ⟨p, hp⟩ := mentions_iff_exists_find.mp hm
  rw [locateLength_eq, locateLength_eq, H.find_lower_append, hp]
  exact H.valueBehind_append hp body

/-- A match in a header section has a value. -/
theorem locateLength_value (hm : Mentions H.bytes) : ∃ v, locateLength H.bytes = .value v := by
  obtain ⟨p, hp⟩ := mentions_iff_exists_find.mp hm
  obtain ⟨e, he⟩ := H.exists_find_crlf hp
  rw [locateLength_eq, hp]
  simp only [valueBehind, he]
  exact ⟨_, rfl⟩

/-- Without a match the lookup in the header section finds nothing. -/
theorem locateLength_absent (hm : ¬ Mentions H.bytes) : locateLength H.bytes = .absent := by
  rw [locateLength_eq, find_eq_none_iff_not_mentions.mpr hm]

/-- A value is located only behind the text. -/
theorem mentions_of_locateLength {v : Bytes} (h : locateLength H.bytes = .value v) :
    Mentions H.bytes := by
  by_contra hm
  rw [H.locateLength_absent hm] at h
  cases h

/-- **Without a match in the header section the lookup reads what follows it.** -/
theorem locateLength_append_of_absent (hm : ¬ Mentions H.bytes) (body : Bytes) :
    locateLength (H.bytes ++ body) = locateLength body := by
  rw [locateLength_eq, locateLength_eq, H.find_lower_append,
    find_eq_none_iff_not_mentions.mpr hm]
  cases find contentLengthText (lower body) with
  | none => rfl
  | some p =>
    simp only [Option.map_some, valueBehind]
    rw [show p + H.bytes.length + 15 = H.bytes.length + (p + 15) from by omega,
      ← List.drop_drop, List.drop_left]

end HeaderSection

/-- A buffer with a CRLFCRLF, cut behind the first one. -/
theorem exists_cut {raw : Bytes} {headerEnd : Nat} (hfind : find crlfcrlf raw = some headerEnd) :
    ∃ (H : HeaderSection) (body : Bytes), raw = H.bytes ++ body ∧
      headerEnd + 4 = H.bytes.length ∧ raw.take headerEnd = H.head ∧
        raw.take (headerEnd + 4) = H.bytes ∧ raw.drop (headerEnd + 4) = body := by
  obtain ⟨H, hbytes, hlen, hraw⟩ := exists_headerSection hfind
  refine ⟨H, raw.drop (headerEnd + 4), hraw, hlen.symm, ?_, hbytes.symm, rfl⟩
  rw [HeaderSection.head, hlen, hbytes, Nat.add_sub_cancel, List.take_take,
    Nat.min_eq_left (Nat.le_add_right headerEnd 4)]

end HttpServer
