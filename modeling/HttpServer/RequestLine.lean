/-
  The request line — when the head of a request is accepted.

  `parse` reads the first line by stream extraction.  `tokens` is the specification of that
  extraction on a whole line, the list of its runs of non-blank bytes, and `IsRequestLine` says in
  these terms what `parse` asks of a first line: at least three tokens, the third of which starts
  with `HTTP/` (`parseHead_error_eq_none_iff`).
-/
import HttpServer.HttpParser

namespace HttpServer

open ListSearch

/-! ## Tokens -/

/-- The maximal runs of bytes that are no white space. -/
def tokens : Bytes → List Bytes
  | [] => []
  | b :: s =>
    if isspace b then tokens s
    else
      match s with
      | [] => [[b]]
      | c :: _ =>
        if isspace c then [b] :: tokens s
        else
          match tokens s with
          | [] => [[b]]
          | t :: ts => (b :: t) :: ts

theorem tokens_cons_space {b : Byte} (hb : isspace b = true) (s : Bytes) :
    tokens (b :: s) = tokens s := by
  rw [tokens.eq_def]
  exact if_pos hb

theorem tokens_dropWhile_isspace (s : Bytes) : tokens (s.dropWhile isspace) = tokens s := by
  induction s with
  | nil => rfl
  | cons b s ih =>
    by_cases hb : isspace b = true
    · rw [List.dropWhile_cons_of_pos hb, ih, tokens_cons_space hb]
    · rw [List.dropWhile_cons_of_neg hb]

/-- The first token of a stream that starts with one. -/
theorem tokens_of_head {b : Byte} (hb : isspace b = false) (s : Bytes) :
    tokens (b :: s) =
      (b :: s).takeWhile (!isspace ·) :: tokens ((b :: s).dropWhile (!isspace ·)) := by
  induction s generalizing b with
  | nil => simp [tokens, hb]
  | cons c s ih =>
    by_cases hc : isspace c = true
    · simp [tokens, hb, hc]
    · have hc' : isspace c = false := by simpa using hc
      have hne : tokens (b :: c :: s) =
          match tokens (c :: s) with
          | [] => [[b]]
          | t :: ts => (b :: t) :: ts := by
        rw [tokens.eq_def]
        simp [hb, hc']
      rw [hne, ih hc']
      simp [hb, hc']

/-- **Stream extraction takes the first token.** -/
theorem extract_eq (s : Bytes) :
    (tokens s = [] ∧ extract s = none) ∨
      ∃ t rest, extract s = some (t, rest) ∧ tokens s = t :: tokens rest := by
  unfold extract
  rw [← tokens_dropWhile_isspace s]
  cases h : s.dropWhile isspace with
  | nil => exact Or.inl ⟨rfl, rfl⟩
  | cons b s' =>
    have hb : isspace b = false := by
      have := List.head_dropWhile_not isspace (l := s) (by rw [h]; exact List.cons_ne_nil b s')
      simpa [h] using this
    exact Or.inr ⟨_, _, rfl, tokens_of_head hb s'⟩

/-! ## Accepted first lines -/

/-- The line reads METHOD TARGET HTTP/..., possibly with more behind it. -/
def IsRequestLine (line : Bytes) : Prop :=
  ∃ method target version more,
    tokens line = method :: target :: version :: more ∧ str "HTTP/" <+: version

instance (line : Bytes) : Decidable (IsRequestLine line) :=
  match h : tokens line with
  | method :: target :: version :: more =>
    if hv : str "HTTP/" <+: version then
      .isTrue ⟨method, target, version, more, h, hv⟩
    else .isFalse fun ⟨_, _, _, _, ht, hp⟩ => by
      rw [h] at ht; cases ht; exact hv hp
  | [] => .isFalse fun ⟨_, _, _, _, ht, _⟩ => by rw [h] at ht; cases ht
  | [_] => .isFalse fun ⟨_, _, _, _, ht, _⟩ => by rw [h] at ht; cases ht
  | [_, _] => .isFalse fun ⟨_, _, _, _, ht, _⟩ => by rw [h] at ht; cases ht

/-- The first line of a header section, less one trailing `\r`; empty when there is none. -/
def firstLine (headersSection : Bytes) : Bytes :=
  match getlines headersSection with
  | [] => []
  | line :: _ => popBack 13 line

theorem find_eq_zero_iff {pat s : Bytes} : find pat s = some 0 ↔ pat <+: s := by
  rw [find_eq_some_iff]
  constructor
  · exact fun h => h.2.1
  · exact fun h => ⟨Nat.zero_le _, h, fun j hj => absurd hj (Nat.not_lt_zero j)⟩

/-- `readRequestLine` succeeds on three tokens, and its fields are these. -/
theorem readRequestLine_of_tokens {line method target version : Bytes} {more : List Bytes}
    (h : tokens line = method :: target :: version :: more) :
    readRequestLine line = ({ method, path := target, version }, true) := by
  rcases extract_eq line with ⟨h0, -⟩ | ⟨t₁, r₁, e₁, h₁⟩
  · rw [h0] at h; cases h
  rcases extract_eq r₁ with ⟨h0, -⟩ | ⟨t₂, r₂, e₂, h₂⟩
  · rw [h₁, h0] at h; cases h
  rcases extract_eq r₂ with ⟨h0, -⟩ | ⟨t₃, r₃, e₃, h₃⟩
  · rw [h₁, h₂, h0] at h; cases h
  rw [h₁, h₂, h₃] at h
  cases h
  simp [readRequestLine, e₁, e₂, e₃]

/-- `readRequestLine` succeeds on three tokens only. -/
theorem tokens_of_readRequestLine {line : Bytes} (h : (readRequestLine line).2 = true) :
    ∃ method target version more, tokens line = method :: target :: version :: more := by
  unfold readRequestLine at h
  rcases extract_eq line with ⟨-, e₁⟩ | ⟨t₁, r₁, e₁, h₁⟩
  · simp [e₁] at h
  rcases extract_eq r₁ with ⟨-, e₂⟩ | ⟨t₂, r₂, e₂, h₂⟩
  · simp [e₁, e₂] at h
  rcases extract_eq r₂ with ⟨-, e₃⟩ | ⟨t₃, r₃, e₃, h₃⟩
  · simp [e₁, e₂, e₃] at h
  exact ⟨t₁, t₂, t₃, tokens r₃, by rw [h₁, h₂, h₃]⟩

/-- **The head of a request is accepted exactly when its first line is a request line.** -/
theorem parseHead_error_eq_none_iff (headersSection : Bytes) :
    (parseHead headersSection).error = .none ↔ IsRequestLine (firstLine headersSection) := by
  unfold parseHead firstLine
  cases getlines headersSection with
  | nil => simp [IsRequestLine, tokens]
  | cons line lines =>
    simp only
    constructor
    · intro h
      cases hread : (readRequestLine (popBack 13 line)).2 with
      | false => simp [hread] at h
      | true =>
        obtain ⟨method, target, version, more, ht⟩ := tokens_of_readRequestLine hread
        refine ⟨method, target, version, more, ht, ?_⟩
        rw [readRequestLine_of_tokens ht] at h
        by_contra hv
        simp [find_eq_zero_iff, hv] at h
    · rintro ⟨method, target, version, more, ht, hv⟩
      rw [readRequestLine_of_tokens ht]
      simp [find_eq_zero_iff.mpr hv]

example : IsRequestLine (str "POST /echo HTTP/1.1") := by decide
example : ¬ IsRequestLine (str "NOTAVALIDREQUEST") := by decide

end HttpServer
