/-
  Readers of a stream — what can be said of a stream of which a part was seen.

  1. **Structure** — a `StreamReader` answers or asks for more.  Its answer is final by its type: what
     follows in the stream does not change it.

  2. **Messages** — a `Message` is answered at its last element and not before.  Of a message cut short
     nothing is read (`Message.read_cut`), and of a stream that begins with one, or is cut short in
     it, any part either shows the message or is not answered (`Message.read_part`).
-/
import Mathlib.Data.List.Basic

/-- A reader whose answers are final. -/
structure StreamReader (α β : Type*) where
  /-- The answer to a part of a stream; `none` asks for more. -/
  read : List α → Option β
  final : ∀ {s : List α} {b : β}, read s = some b → ∀ t, read (s ++ t) = some b

namespace StreamReader

variable {α β : Type*} (R : StreamReader α β)

theorem read_of_prefix {s t : List α} {b : β} (h : R.read s = some b) (hst : s <+: t) :
    R.read t = some b := by
  obtain ⟨rest, rfl⟩ := hst
  exact R.final h rest

/-! ## Messages -/

/-- `s` is answered with `b`, and none of its proper parts is answered. -/
structure Message (s : List α) (b : β) : Prop where
  whole : R.read s = some b
  part : ∀ p, p <+: s → p ≠ s → R.read p = none

namespace Message

variable {R} {s t p : List α} {b : β}

theorem of_take (hwhole : R.read s = some b) (hpart : ∀ n < s.length, R.read (s.take n) = none) :
    R.Message s b where
  whole := hwhole
  part p hp hne := by
    have hlt : p.length < s.length := by
      refine Nat.lt_of_le_of_ne hp.length_le fun hlen => hne ?_
      exact hp.eq_of_length hlen
    rw [List.prefix_iff_eq_take.mp hp]
    exact hpart p.length hlt

/-- **A message cut short**: a part of it is answered exactly if it is all of it. -/
theorem read_cut (h : R.Message s b) (hp : p <+: s) : R.read p = some b ↔ p = s := by
  constructor
  · intro hread
    by_contra hne
    rw [h.part p hp hne] at hread
    cases hread
  · intro heq
    rw [heq, h.whole]

/-- A part of a stream that begins with a message: the message was seen, or nothing is answered. -/
theorem read_part (h : R.Message s b) (hst : s <+: t) (hp : p <+: t) :
    (s <+: p ∧ R.read p = some b) ∨ (p <+: s ∧ p ≠ s ∧ R.read p = none) := by
  rcases List.prefix_or_prefix_of_prefix hst hp with hsp | hps
  · exact Or.inl ⟨hsp, R.read_of_prefix h.whole hsp⟩
  · by_cases heq : p = s
    · exact Or.inl ⟨heq ▸ List.prefix_refl p, heq ▸ h.whole⟩
    · exact Or.inr ⟨hps, heq, h.part p hps heq⟩

end Message

end StreamReader
