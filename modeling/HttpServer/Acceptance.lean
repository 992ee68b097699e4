/-
  Accepted requests — when `parse` returns NONE, and what that says about the request.

  1. **Acceptance** (`HeaderSection.parse_error_none_iff`) — the header section fits, its first line
     is a request line, and its length, if it has the text `content-length:`, is a number within
     `max_body_size` and within the bytes that are there.  In both cases the result is known in full.

  2. **Limits** (`respectsLimits_iff`) — the header limit always holds of an accepted request.  The
     body limit is compared with the number only: without the text, everything behind the header
     section is the body.

  3. **Truncation and extension** (`parse_stable`) — a request that ends with its declared body is
     incomplete when any byte is missing, and decides the result whatever follows it.  A proper prefix
     has no CRLFCRLF, or has the same header section and fewer bytes behind it.
-/
import HttpServer.Framing
import HttpServer.Segmentation

namespace HttpServer

open ListSearch

/-! ## Acceptance -/

namespace HeaderSection

variable (H : HeaderSection)

/-- `parse` finds no fault before it looks for a length. -/
def Fits (maxHeaderSize : Nat) : Prop :=
  H.bytes.length ≤ maxHeaderSize ∧ IsRequestLine (firstLine H.head)

theorem parse_of_fits {maxHeaderSize : Nat} (h : H.Fits maxHeaderSize) (body : Bytes)
    (maxBodySize : Nat) :
    parse (H.bytes ++ body) maxHeaderSize maxBodySize =
      frameBody (parseHead H.head) (locateLength H.bytes) body maxBodySize := by
  have herr := (parseHead_error_eq_none_iff H.head).mpr h.2
  rw [H.parse_append, if_neg (Nat.not_lt.mpr h.1), if_neg (not_not_intro herr)]

theorem fits_of_error_none {maxHeaderSize maxBodySize : Nat} {body : Bytes}
    (h : (parse (H.bytes ++ body) maxHeaderSize maxBodySize).error = .none) :
    H.Fits maxHeaderSize := by
  rw [H.parse_append] at h
  split at h
  · cases h
  · rename_i hsize
    split at h
    · rename_i herr
      exact absurd h herr
    · rename_i herr
      exact ⟨Nat.not_lt.mp hsize, (parseHead_error_eq_none_iff H.head).mp (not_not.mp herr)⟩

/-- The number a request declares, where there is one, is one that `parse` accepts. -/
def LengthFits (maxBodySize : Nat) (body : Bytes) : Prop :=
  Mentions H.bytes → ∃ n, LengthIs (locateLength H.bytes) n ∧ n ≤ maxBodySize ∧ n ≤ body.length

/-- The result for a request without a length. -/
theorem parse_of_fits_of_not_mentions {maxHeaderSize : Nat} (h : H.Fits maxHeaderSize)
    (hm : ¬ Mentions H.bytes) (body : Bytes) (maxBodySize : Nat) :
    parse (H.bytes ++ body) maxHeaderSize maxBodySize =
      { parseHead H.head with body := body } := by
  rw [H.parse_of_fits h, H.locateLength_absent hm]
  rfl

/-- The result for a request with a length that is accepted. -/
theorem parse_of_fits_of_lengthIs {maxHeaderSize maxBodySize n : Nat} {body : Bytes}
    (h : H.Fits maxHeaderSize) (hn : LengthIs (locateLength H.bytes) n) (hmax : n ≤ maxBodySize)
    (hlen : n ≤ body.length) :
    parse (H.bytes ++ body) maxHeaderSize maxBodySize =
      { parseHead H.head with body := body.take n } := by
  rw [H.parse_of_fits h, frameBody_of_lengthIs hn, if_neg (Nat.not_lt.mpr hmax),
    if_neg (Nat.not_lt.mpr hlen)]

/-- **When a request is accepted.** -/
theorem parse_error_none_iff (body : Bytes) (maxHeaderSize maxBodySize : Nat) :
    (parse (H.bytes ++ body) maxHeaderSize maxBodySize).error = .none ↔
      H.Fits maxHeaderSize ∧ H.LengthFits maxBodySize body := by
  constructor
  · intro h
    have hfits := H.fits_of_error_none h
    refine ⟨hfits, fun hm => ?_⟩
    obtain ⟨v, hv⟩ := H.locateLength_value hm
    rw [H.parse_of_fits hfits, hv] at h
    cases hn : stoull v with
    | error e =>
      simp only [frameBody, hn] at h
      cases h
    | ok n =>
      have hlength : LengthIs (locateLength H.bytes) n := ⟨v, hv, hn⟩
      rw [← hv, frameBody_of_lengthIs hlength] at h
      split at h
      · cases h
      · rename_i hmax
        split at h
        · cases h
        · rename_i hlen
          exact ⟨n, hlength, Nat.not_lt.mp hmax, Nat.not_lt.mp hlen⟩
  · rintro ⟨hfits, hlength⟩
    have herr := (parseHead_error_eq_none_iff H.head).mpr hfits.2
    by_cases hm : Mentions H.bytes
    · obtain ⟨n, hn, hmax, hlen⟩ := hlength hm
      rw [H.parse_of_fits_of_lengthIs hfits hn hmax hlen]
      exact herr
    · rw [H.parse_of_fits_of_not_mentions hfits hm]
      exact herr

end HeaderSection

/-! ## Limits -/

/-- If `parse` accepts `raw`, its header section is within the one limit and the body of the result
    within the other. -/
def RespectsLimits (maxHeaderSize maxBodySize : Nat) (raw : Bytes) : Prop :=
  (parse raw maxHeaderSize maxBodySize).error = .none →
    (∃ headerEnd, find crlfcrlf raw = some headerEnd ∧ headerEnd + 4 ≤ maxHeaderSize) ∧
      (parse raw maxHeaderSize maxBodySize).body.length ≤ maxBodySize

/-- **When both limits hold.**  For every byte string and all limits: an accepted request respects
    them exactly when it has the text `content-length:` in its header section, or no more than
    `max_body_size` bytes behind it. -/
theorem respectsLimits_iff (raw : Bytes) (maxHeaderSize maxBodySize : Nat) :
    RespectsLimits maxHeaderSize maxBodySize raw ↔
      ∀ headerEnd, find crlfcrlf raw = some headerEnd → headerEnd + 4 ≤ maxHeaderSize →
        IsRequestLine (firstLine (raw.take headerEnd)) →
          Mentions (raw.take (headerEnd + 4)) ∨
            (raw.drop (headerEnd + 4)).length ≤ maxBodySize := by
  cases hfind : find crlfcrlf raw with
  | none =>
    refine iff_of_true (fun h => ?_) (fun headerEnd h => by cases h)
    simp [parse, hfind] at h
  | some headerEnd =>
    obtain ⟨H, body, rfl, hend, hhead, htake, hdrop⟩ := exists_cut hfind
    simp only [Option.some.injEq, forall_eq', hhead, htake, hdrop]
    rw [RespectsLimits, H.parse_error_none_iff, hend]
    constructor
    · intro h hsize hline
      by_cases hm : Mentions H.bytes
      · exact Or.inl hm
      · right
        have hfits : H.Fits maxHeaderSize := ⟨hsize, hline⟩
        have hbody := (h ⟨hfits, fun h => absurd h hm⟩).2
        rwa [H.parse_of_fits_of_not_mentions hfits hm] at hbody
    · rintro h ⟨hfits, hlength⟩
      refine ⟨⟨headerEnd, hfind, hend ▸ hfits.1⟩, ?_⟩
      by_cases hm : Mentions H.bytes
      · obtain ⟨n, hn, hmax, hlen⟩ := hlength hm
        rw [H.parse_of_fits_of_lengthIs hfits hn hmax hlen]
        show (body.take n).length ≤ maxBodySize
        rw [List.length_take]
        omega
      · rw [H.parse_of_fits_of_not_mentions hfits hm]
        exact (h hfits.1 hfits.2).resolve_left hm

/-- Two bytes behind a header section without a length, where one is allowed. -/
theorem body_exceeds_limit :
    (parse (str "POST / HTTP/1.1\r\n\r\nab") 64 1).error = .none ∧
      ¬ RespectsLimits 64 1 (str "POST / HTTP/1.1\r\n\r\nab") := by
  have hnone : (parse (str "POST / HTTP/1.1\r\n\r\nab") 64 1).error = .none := by decide +kernel
  refine ⟨hnone, fun h => ?_⟩
  exact absurd (h hnone).2 (by decide +kernel)

/-! ## Truncation and extension -/

/-- A prefix that ends inside the header section. -/
theorem parse_of_short {H : HeaderSection} {p : Bytes} (hpre : p <+: H.bytes)
    (hlt : p.length < H.bytes.length) (maxHeaderSize maxBodySize : Nat) :
    (parse p maxHeaderSize maxBodySize).error = .incomplete := by
  simp only [parse, find_crlfcrlf_of_short hpre hlt]

/-- **Parsing is stable under truncation and extension.**  For every byte string that `parse` accepts
    with a length in its header section and nothing behind its body: every proper prefix is
    incomplete, and every extension has the same result, in every field. -/
theorem parse_stable {r v : Bytes} {maxHeaderSize maxBodySize headerEnd : Nat}
    (hnone : (parse r maxHeaderSize maxBodySize).error = .none)
    (hfind : find crlfcrlf r = some headerEnd)
    (hlocated : locateLength (r.take (headerEnd + 4)) = .value v)
    (hbody : r.drop (headerEnd + 4) = (parse r maxHeaderSize maxBodySize).body) :
    (∀ p, p <+: r → p ≠ r → (parse p maxHeaderSize maxBodySize).error = .incomplete) ∧
      ∀ more, parse (r ++ more) maxHeaderSize maxBodySize =
        parse r maxHeaderSize maxBodySize := by
  obtain ⟨H, body, rfl, -, -, htake, hdrop⟩ := exists_cut hfind
  rw [htake] at hlocated
  rw [hdrop] at hbody
  obtain ⟨hfits, hlength⟩ := (H.parse_error_none_iff _ _ _).mp hnone
  obtain ⟨n, hn, hmax, hlen⟩ := hlength (H.mentions_of_locateLength hlocated)
  have hresult := H.parse_of_fits_of_lengthIs hfits hn hmax hlen
  -- the body is all of what follows the header section, so it has the declared size
  have hexact : body.length = n := by
    rw [hresult] at hbody
    have hsize := congrArg List.length hbody
    rw [List.length_take, Nat.min_eq_left hlen] at hsize
    exact hsize
  refine ⟨fun p hp hne => ?_, fun more => ?_⟩
  · rcases Nat.lt_or_ge p.length H.bytes.length with hshort | hlong
    · exact parse_of_short (List.prefix_of_prefix_length_le hp (List.prefix_append _ _)
        (Nat.le_of_lt hshort)) hshort _ _
    · obtain ⟨taken, rfl⟩ := List.prefix_of_prefix_length_le (List.prefix_append _ _) hp hlong
      have htaken : taken <+: body := (List.prefix_append_right_inj _).mp hp
      have hless : taken.length < n := by
        rw [← hexact]
        refine Nat.lt_of_le_of_ne htaken.length_le fun heq => hne ?_
        rw [htaken.eq_of_length heq]
      rw [H.parse_of_fits hfits, frameBody_of_lengthIs hn, if_neg (Nat.not_lt.mpr hmax),
        if_pos hless]
  · have hlen' : n ≤ (body ++ more).length := by
      rw [List.length_append]
      omega
    rw [hresult, List.append_assoc, H.parse_of_fits_of_lengthIs hfits hn hmax hlen',
      List.take_append_of_le_length hlen]

/-- The theorem on a `POST` of three bytes. -/
theorem parse_stable_post :
    (∀ p, p <+: str "POST / HTTP/1.1\r\nContent-Length: 3\r\n\r\nabc" →
        p ≠ str "POST / HTTP/1.1\r\nContent-Length: 3\r\n\r\nabc" →
          (parse p 65536 1048576).error = .incomplete) ∧
      ∀ more, parse (str "POST / HTTP/1.1\r\nContent-Length: 3\r\n\r\nabc" ++ more) 65536 1048576 =
        parse (str "POST / HTTP/1.1\r\nContent-Length: 3\r\n\r\nabc") 65536 1048576 :=
  @parse_stable (str "POST / HTTP/1.1\r\nContent-Length: 3\r\n\r\nabc") (str "3") 65536 1048576 34
    (by decide +kernel) (by decide) (by decide) (by decide +kernel)

end HttpServer
