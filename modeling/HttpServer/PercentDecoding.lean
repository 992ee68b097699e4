/-
  What `url_decode` computes — percent escapes, and what else the stream takes for one.

  1. **Program** — `decodeWith read` is the loop of `url_decode`, with the reading of the two bytes
     behind a `%` as a parameter; `urlDecode_eq` puts the stream extraction there (`readEscape`).

  2. **Specification** — `decodeEscapes` is the same loop with `hexByte`, which takes two
     hexadecimal digits and nothing else.

  3. **The crux (`readEscape_eq`)** — on two digits the two readings agree; on two other bytes the
     stream still finds a number when a digit stands behind one blank or sign, or in front of
     something else (`Lenient`).  That number is at most 15, so its byte is never a `%`, and what
     it changes is seen at once.

  4. **Bridge** — `urlDecode_eq_decodeEscapes_iff`: the texts that are decoded by the rules are the
     ones in which no `%` that the decoder meets has a lenient pair behind it.  A text that was
     written by the rules has none (`urlDecode_of_encodes`), so each of its paths is looked up.
-/
import HttpServer.StaticTarget
import HttpServer.PathForm

namespace HttpServer

/-! ## The loop -/

/-- A byte that is copied; `+` stands for a blank. -/
def plainByte (b : Byte) : Byte := if b = 43 then 32 else b

/-- `decodeWith read` — the loop, where `read` reads the two bytes behind a `%`. -/
def decodeWith (read : Byte → Byte → Option Byte) : Bytes → Bytes
  | [] => []
  | [b] => [plainByte b]
  | [b, c] => plainByte b :: decodeWith read [c]
  | b :: c :: d :: s =>
    if b = 37 then
      match read c d with
      | some v => v :: decodeWith read s
      | none => b :: decodeWith read (c :: d :: s)
    else plainByte b :: decodeWith read (c :: d :: s)

/-- The stream extraction of `url_decode`. -/
def readEscape (c d : Byte) : Option Byte := (extractHex [c, d]).map charOfInt

/-- The byte that two hexadecimal digits denote. -/
def hexByte (c d : Byte) : Option Byte :=
  match hexDigit c, hexDigit d with
  | some high, some low => some (UInt8.ofNat (16 * high + low))
  | _, _ => none

/-- Decoding by the rules: `%` and two hexadecimal digits are a byte, `+` is a blank, and every
    other byte is copied. -/
def decodeEscapes (s : Bytes) : Bytes := decodeWith hexByte s

variable {read : Byte → Byte → Option Byte}

/-- A byte other than `%`. -/
theorem decodeWith_cons_ne {b : Byte} (hb : b ≠ 37) (s : Bytes) :
    decodeWith read (b :: s) = plainByte b :: decodeWith read s := by
  match s with
  | [] => rfl
  | [c] => rfl
  | c :: d :: s => rw [decodeWith, if_neg hb]

/-- A `%` with a byte behind it that `read` finds. -/
theorem decodeWith_some {c d v : Byte} (hv : read c d = some v) (s : Bytes) :
    decodeWith read (37 :: c :: d :: s) = v :: decodeWith read s := by
  rw [decodeWith, if_pos rfl, hv]

/-- A `%` that `read` makes nothing of. -/
theorem decodeWith_none {c d : Byte} (hnone : read c d = none) (s : Bytes) :
    decodeWith read (37 :: c :: d :: s) = 37 :: decodeWith read (c :: d :: s) := by
  rw [decodeWith, if_pos rfl, hnone]

/-- **`url_decode` is that loop.** -/
theorem urlDecode_eq (s : Bytes) : urlDecode s = decodeWith readEscape s := by
  fun_induction urlDecode s with
  | case1 => rfl
  | case2 b => rfl
  | case3 b c ih =>
    rw [ih]
    rfl
  | case4 c d s value hread ih =>
    have hv : readEscape c d = some (charOfInt value) := by rw [readEscape, hread, Option.map_some]
    rw [decodeWith_some hv, ih]
  | case5 c d s hread ih =>
    have hnone : readEscape c d = none := by rw [readEscape, hread, Option.map_none]
    rw [decodeWith_none hnone, ih]
  | case6 b c d s hb ih =>
    rw [decodeWith_cons_ne hb, ih]
    rfl

/-! ## What the stream reads -/

/-- A hexadecimal digit is below 16, and is neither a blank nor a sign. -/
theorem of_hexDigit_eq_some {b : Byte} {v : Nat} (h : hexDigit b = some v) :
    v < 16 ∧ isspace b = false ∧ b ≠ 43 ∧ b ≠ 45 := by
  have hvalue : v < 16 := by
    unfold hexDigit at h
    simp only [UInt8.le_iff_toNat_le, UInt8.reduceToNat] at h
    split at h
    · cases h
      omega
    · split at h
      · cases h
        omega
      · split at h
        · cases h
          omega
        · cases h
  refine ⟨hvalue, ?_⟩
  unfold hexDigit at h
  unfold isspace
  grind

/-- The part of the extraction behind the sign. -/
def hexNumber (negative : Bool) (s : Bytes) : Option Int :=
  let digits := (takeHexPrefix s).takeWhile fun b => (hexDigit b).isSome
  if digits = [] then none
  else
    let value := digits.foldl (fun n d => 16 * n + ((hexDigit d).getD 0 : Int)) 0
    some (if negative then -value else value)

theorem extractHex_eq (stream : Bytes) :
    extractHex stream = hexNumber (takeSign (stream.dropWhile isspace)).1
      (takeSign (stream.dropWhile isspace)).2 := rfl

/-- One byte is left. -/
theorem hexNumber_singleton (negative : Bool) (d : Byte) :
    hexNumber negative [d] =
      (hexDigit d).map fun v : Nat => if negative then -(v : Int) else (v : Int) := by
  have hkept : takeHexPrefix [d] = [d] := by
    unfold takeHexPrefix
    split
    · rename_i heq
      cases heq
    · rfl
  unfold hexNumber
  rw [hkept]
  cases hd : hexDigit d with
  | none => simp [hd]
  | some v => simp [hd]

/-- Both bytes are left, and there was no sign. -/
theorem hexNumber_pair (c d : Byte) :
    hexNumber false [c, d] =
      if c = 48 ∧ (d = 120 ∨ d = 88) then none
      else match hexDigit c, hexDigit d with
        | some high, some low => some (16 * (high : Int) + low)
        | some high, none => some (high : Int)
        | none, _ => none := by
  by_cases hx : c = 48 ∧ (d = 120 ∨ d = 88)
  · obtain ⟨rfl, hd⟩ := hx
    rw [if_pos ⟨rfl, hd⟩]
    unfold hexNumber
    rw [takeHexPrefix, if_pos hd]
    rfl
  · have hkept : takeHexPrefix [c, d] = [c, d] := by
      unfold takeHexPrefix
      split
      · rename_i heq
        cases heq
        exact if_neg (fun hd => hx ⟨rfl, hd⟩)
      · rfl
    rw [if_neg hx]
    unfold hexNumber
    rw [hkept]
    cases hc : hexDigit c with
    | none => simp [hc]
    | some high =>
      cases hd : hexDigit d with
      | none => simp [hc, hd]
      | some low => simp [hc, hd]

/-- Behind one blank, the stream reads the second byte alone. -/
theorem extractHex_blank {c : Byte} (hc : isspace c = true) (d : Byte) :
    extractHex [c, d] = (hexDigit d).map fun v : Nat => (v : Int) := by
  rw [extractHex_eq, List.dropWhile_cons_of_pos hc]
  by_cases hd : isspace d = true
  · have hnone : hexDigit d = none := by
      by_contra hsome
      obtain ⟨v, hv⟩ := Option.ne_none_iff_exists'.mp hsome
      exact absurd hd (by rw [(of_hexDigit_eq_some hv).2.1]; decide)
    rw [List.dropWhile_cons_of_pos hd, List.dropWhile_nil, hnone]
    rfl
  · rw [List.dropWhile_cons_of_neg hd]
    by_cases hminus : d = 45
    · rw [hminus]
      rfl
    · by_cases hplus : d = 43
      · rw [hplus]
        rfl
      · have hsign : takeSign [d] = (false, [d]) := by
          unfold takeSign
          split <;> simp_all
        rw [hsign, hexNumber_singleton]
        rfl

/-- Behind a sign too. -/
theorem extractHex_plus (d : Byte) :
    extractHex [43, d] = (hexDigit d).map fun v : Nat => (v : Int) := by
  rw [extractHex_eq]
  exact hexNumber_singleton false d

theorem extractHex_minus (d : Byte) :
    extractHex [45, d] = (hexDigit d).map fun v : Nat => -(v : Int) := by
  rw [extractHex_eq]
  exact hexNumber_singleton true d

/-- From any other byte on, it reads both. -/
theorem extractHex_pair {c : Byte} (hc : isspace c = false) (hplus : c ≠ 43) (hminus : c ≠ 45)
    (d : Byte) : extractHex [c, d] = hexNumber false [c, d] := by
  have hsign : takeSign [c, d] = (false, [c, d]) := by
    unfold takeSign
    split <;> simp_all
  rw [extractHex_eq, List.dropWhile_cons_of_neg (by rw [hc]; decide), hsign]

/-- A number below 16 is not the code of a `%`. -/
theorem charOfInt_ne_percent {value : Int} (hlow : -16 < value) (hhigh : value < 16) :
    charOfInt value ≠ 37 := by
  intro heq
  have hnat : (charOfInt value).toNat = 37 := by rw [heq]; rfl
  rw [charOfInt, UInt8.toNat_ofNat'] at hnat
  omega

/-- `Lenient c d` — the stream reads a number from two bytes that are not two digits: a digit
    behind one blank or sign, or a digit in front of something else, unless that is `0x`. -/
def Lenient (c d : Byte) : Prop :=
  ((isspace c = true ∨ c = 43 ∨ c = 45) ∧ hexDigit d ≠ none) ∨
    (hexDigit c ≠ none ∧ hexDigit d = none ∧ ¬(c = 48 ∧ (d = 120 ∨ d = 88)))

instance (c d : Byte) : Decidable (Lenient c d) := by
  unfold Lenient
  exact inferInstance

/-- **Two digits are read as such.** -/
theorem readEscape_of_hexByte {c d v : Byte} (h : hexByte c d = some v) :
    readEscape c d = some v := by
  unfold hexByte at h
  cases hc : hexDigit c with
  | none => simp [hc] at h
  | some high =>
    cases hd : hexDigit d with
    | none => simp [hc, hd] at h
    | some low =>
      obtain ⟨hhigh, hspace, hplus, hminus⟩ := of_hexDigit_eq_some hc
      have hlow := (of_hexDigit_eq_some hd).1
      -- the `x` of a prefix is no digit
      have hx : ¬(c = 48 ∧ (d = 120 ∨ d = 88)) := by
        rintro ⟨-, rfl | rfl⟩
        · cases hd
        · cases hd
      have hvalue : (16 * (high : Int) + low) % 256 = ((16 * high + low : Nat) : Int) := by omega
      rw [readEscape, extractHex_pair hspace hplus hminus, hexNumber_pair, if_neg hx, hc, hd]
      simp only [hc, hd, Option.some.injEq] at h
      rw [← h]
      show some (charOfInt (16 * (high : Int) + low)) = _
      rw [charOfInt, hvalue, Int.toNat_natCast]

/-- What is read behind a blank or a sign. -/
theorem readEscape_of_map {c d : Byte} {f : Nat → Int}
    (hc : isspace c = true ∨ c = 43 ∨ c = 45) (hread : extractHex [c, d] = (hexDigit d).map f)
    (hf : ∀ v, v < 16 → -16 < f v ∧ f v < 16) :
    (readEscape c d = none ↔ ¬Lenient c d) ∧ readEscape c d ≠ some 37 := by
  have hnone : hexDigit c = none := by
    by_contra hsome
    obtain ⟨v, hv⟩ := Option.ne_none_iff_exists'.mp hsome
    obtain ⟨-, hspace, hplus, hminus⟩ := of_hexDigit_eq_some hv
    rcases hc with h | h | h
    · rw [hspace] at h
      cases h
    · exact hplus h
    · exact hminus h
  rw [readEscape, hread]
  cases hd : hexDigit d with
  | none =>
    refine ⟨iff_of_true rfl ?_, by simp⟩
    rintro (⟨-, hsome⟩ | ⟨hsome, -⟩)
    · exact hsome hd
    · exact hsome hnone
  | some v =>
    obtain ⟨hlow, hhigh⟩ := hf v (of_hexDigit_eq_some hd).1
    have hlenient : Lenient c d := Or.inl ⟨hc, by rw [hd]; exact Option.some_ne_none v⟩
    refine ⟨iff_of_false (by simp) (not_not_intro hlenient), ?_⟩
    rw [Option.map_some, Option.map_some]
    intro heq
    exact charOfInt_ne_percent hlow hhigh (Option.some.inj heq)

/-- What is read from any other byte on. -/
theorem readEscape_of_pair {c d : Byte} (hspace : isspace c = false) (hplus : c ≠ 43)
    (hminus : c ≠ 45) (h : hexByte c d = none) :
    (readEscape c d = none ↔ ¬Lenient c d) ∧ readEscape c d ≠ some 37 := by
  have hfirst : ¬(isspace c = true ∨ c = 43 ∨ c = 45) := by
    rintro (hblank | hsign | hsign)
    · rw [hspace] at hblank
      cases hblank
    · exact hplus hsign
    · exact hminus hsign
  rw [readEscape, extractHex_pair hspace hplus hminus, hexNumber_pair]
  by_cases hx : c = 48 ∧ (d = 120 ∨ d = 88)
  · rw [if_pos hx]
    refine ⟨iff_of_true rfl ?_, by simp⟩
    rintro (⟨hc, -⟩ | ⟨-, -, hnot⟩)
    · exact hfirst hc
    · exact hnot hx
  · rw [if_neg hx]
    cases hc : hexDigit c with
    | none =>
      refine ⟨iff_of_true rfl ?_, by simp⟩
      rintro (⟨hblank, -⟩ | ⟨hsome, -⟩)
      · exact hfirst hblank
      · exact hsome hc
    | some high =>
      have hd : hexDigit d = none := by
        unfold hexByte at h
        rw [hc] at h
        cases hd : hexDigit d with
        | none => rfl
        | some low => simp [hd] at h
      have hlenient : Lenient c d :=
        Or.inr ⟨by rw [hc]; exact Option.some_ne_none high, hd, hx⟩
      have hhigh := (of_hexDigit_eq_some hc).1
      rw [hd]
      refine ⟨iff_of_false (by simp) (not_not_intro hlenient), ?_⟩
      intro heq
      have hlow : -16 < (high : Int) := by omega
      exact charOfInt_ne_percent hlow (by omega) (Option.some.inj heq)

/-- **Anything else is read exactly when it is lenient**, and never as a `%`. -/
theorem readEscape_of_not_hex {c d : Byte} (h : hexByte c d = none) :
    (readEscape c d = none ↔ ¬Lenient c d) ∧ readEscape c d ≠ some 37 := by
  -- the first byte is a blank, one of the two signs or anything else
  by_cases hspace : isspace c = true
  · refine readEscape_of_map (Or.inl hspace) (extractHex_blank hspace d) ?_
    intro v hv
    show -16 < (v : Int) ∧ (v : Int) < 16
    omega
  · by_cases hplus : c = 43
    · rw [hplus]
      refine readEscape_of_map (Or.inr (Or.inl rfl)) (extractHex_plus d) ?_
      intro v hv
      show -16 < (v : Int) ∧ (v : Int) < 16
      omega
    · by_cases hminus : c = 45
      · rw [hminus]
        refine readEscape_of_map (Or.inr (Or.inr rfl)) (extractHex_minus d) ?_
        intro v hv
        show -16 < -(v : Int) ∧ -(v : Int) < 16
        omega
      · exact readEscape_of_pair (Bool.eq_false_iff.mpr hspace) hplus hminus h

/-! ## Texts that are decoded by the rules -/

/-- The two bytes behind each `%` that the decoder meets; the digits of an escape are passed
    over. -/
def escapes : Bytes → List (Byte × Byte)
  | [] => []
  | [_] => []
  | [_, _] => []
  | b :: c :: d :: s =>
    if b = 37 then
      match hexByte c d with
      | some _ => (c, d) :: escapes s
      | none => (c, d) :: escapes (c :: d :: s)
    else escapes (c :: d :: s)

/-- **`url_decode` follows the rules exactly where no lenient pair is met.** -/
theorem urlDecode_eq_decodeEscapes_iff (s : Bytes) :
    urlDecode s = decodeEscapes s ↔ ∀ pair ∈ escapes s, ¬Lenient pair.1 pair.2 := by
  rw [urlDecode_eq, decodeEscapes]
  fun_induction escapes s with
  | case1 => simp [decodeWith]
  | case2 b => simp [decodeWith]
  | case3 b c => simp [decodeWith]
  | case4 c d s v hv ih =>
    have hnot : ¬Lenient c d := by
      have hdigits : hexDigit c ≠ none ∧ hexDigit d ≠ none := by
        unfold hexByte at hv
        constructor
        · intro hc
          simp [hc] at hv
        · intro hd
          simp [hd] at hv
      obtain ⟨high, hhigh⟩ := Option.ne_none_iff_exists'.mp hdigits.1
      obtain ⟨-, hspace, hplus, hminus⟩ := of_hexDigit_eq_some hhigh
      rintro (⟨hblank | hsign | hsign, -⟩ | ⟨-, hd, -⟩)
      · rw [hspace] at hblank
        cases hblank
      · exact hplus hsign
      · exact hminus hsign
      · exact hdigits.2 hd
    rw [decodeWith_some (readEscape_of_hexByte hv), decodeWith_some hv, List.cons_inj_right, ih,
      List.forall_mem_cons]
    exact (and_iff_right hnot).symm
  | case5 c d s hnone ih =>
    obtain ⟨hread, hpercent⟩ := readEscape_of_not_hex hnone
    rw [decodeWith_none hnone, List.forall_mem_cons]
    cases hlenient : readEscape c d with
    | none =>
      rw [decodeWith_none hlenient, List.cons_inj_right, ih]
      exact (and_iff_right (hread.mp hlenient)).symm
    | some v =>
      -- the byte that is found differs from the `%` that should have been kept
      rw [decodeWith_some hlenient]
      refine iff_of_false (fun heq => ?_) (fun hall => ?_)
      · rw [(List.cons.inj heq).1] at hlenient
        exact hpercent hlenient
      · rw [hread.mpr hall.1] at hlenient
        cases hlenient
  | case6 b c d s hb ih =>
    rw [decodeWith_cons_ne hb, decodeWith_cons_ne hb, List.cons_inj_right, ih]

/-- `% 5` is not left alone: the stream skips the blank and finds a 5. -/
theorem urlDecode_blank_five :
    ¬∀ s : Bytes, urlDecode s = decodeEscapes s := by
  intro h
  exact absurd (h (str "% 5")) (by decide)

/-! ## Every encoding of a path -/

/-- `Encodes text encoding` — each byte of the text is written as itself or as `%` and two
    hexadecimal digits. -/
inductive Encodes : Bytes → Bytes → Prop
  | nil : Encodes [] []
  | literal {b : Byte} {text encoding : Bytes} (hpercent : b ≠ 37) (hplus : b ≠ 43)
      (rest : Encodes text encoding) : Encodes (b :: text) (b :: encoding)
  | escaped {b c d : Byte} {text encoding : Bytes} (hbyte : hexByte c d = some b)
      (rest : Encodes text encoding) : Encodes (b :: text) (37 :: c :: d :: encoding)

/-- **Decoding undoes encoding.** -/
theorem urlDecode_of_encodes {text encoding : Bytes} (h : Encodes text encoding) :
    urlDecode encoding = text := by
  rw [urlDecode_eq]
  induction h with
  | nil => rfl
  | literal hpercent hplus _ ih =>
    rw [decodeWith_cons_ne hpercent, ih, plainByte, if_neg hplus]
  | escaped hbyte _ ih => rw [decodeWith_some (readEscape_of_hexByte hbyte), ih]

namespace StaticFileHandler

/-- What a relative path names under the document root, whatever its bytes are. -/
def lookUp (handler : StaticFileHandler) (fs : FileSystem) (relative : Bytes) : StaticTarget :=
  let root := handler.documentRoot
  let filePath :=
    if root = [] ∨ root.getLast? = some sepByte then root ++ relative
    else root ++ sepByte :: relative
  match fs.canonical filePath with
  | none => .missing
  | some canonical =>
    match fs.canonical root with
    | none => .missing
    | some rootCanonical => classify fs rootCanonical canonical

/-- `serve` looks up the relative path that it has made, behind the document root. -/
theorem serve_eq_lookUp (handler : StaticFileHandler) (fs : FileSystem) {urlPath : Bytes}
    (h : (relativePath urlPath).head? ≠ some sepByte) :
    handler.serve fs urlPath = answerFor (handler.lookUp fs (relativePath urlPath)) := by
  rw [serve_eq, target, pathJoin, if_neg h]
  rfl

/-- **Every servable path is reachable**, in every encoding of it. -/
theorem serve_of_encodes {parts : List Bytes} {encoding : Bytes} (hne : parts ≠ [])
    (hsafe : ∀ part ∈ parts, SafePart part)
    (hencodes : Encodes ([sepByte].intercalate parts) encoding) :
    normalizePath (urlDecode (sepByte :: encoding)) = [sepByte].intercalate parts ∧
      ∀ (handler : StaticFileHandler) (fs : FileSystem),
        handler.serve fs (sepByte :: encoding) =
          answerFor (handler.lookUp fs ([sepByte].intercalate parts)) := by
  have hdecode : urlDecode (sepByte :: encoding) = sepByte :: [sepByte].intercalate parts :=
    urlDecode_of_encodes (.literal (by decide) (by decide) hencodes)
  -- the leading separator is one more empty component
  have hleading : normalizePath (sepByte :: [sepByte].intercalate parts) =
      normalizePath ([sepByte].intercalate parts) := by
    rw [← List.nil_append (sepByte :: _), normalizePath_eq, normalParts_append_sep,
      normalizePath_eq ([sepByte].intercalate parts)]
    rfl
  have hnormal : normalizePath (urlDecode (sepByte :: encoding)) = [sepByte].intercalate parts := by
    rw [hdecode, hleading, normalizePath_of_safe hsafe]
  have hnonempty : ∀ part ∈ parts, part ≠ [] := fun part h => (hsafe part h).nonempty
  have hrelative : relativePath (sepByte :: encoding) = [sepByte].intercalate parts := by
    have htext : [sepByte].intercalate parts ≠ [] :=
      fun hnil => hne ((SepPath.intercalate_eq_nil_iff hnonempty).mp hnil)
    rw [relativePath, hnormal]
    exact if_neg htext
  refine ⟨hnormal, ?_⟩
  intro handler fs
  have hhead : (relativePath (sepByte :: encoding)).head? ≠ some sepByte := by
    rw [hrelative]
    exact (SepPath.intercalate_ends hnonempty
      (fun part h => (hsafe part h).no_separator)).1
  rw [serve_eq_lookUp handler fs hhead, hrelative]

/-- The theorem on `/a%2e/%6A`. -/
theorem serve_of_encodes_escapes :
    normalizePath (urlDecode (sepByte :: str "a%2e/%6A")) = str "a./j" ∧
      ∀ (handler : StaticFileHandler) (fs : FileSystem),
        handler.serve fs (sepByte :: str "a%2e/%6A") =
          answerFor (handler.lookUp fs (str "a./j")) := by
  have hsafe : ∀ part ∈ [str "a.", str "j"], SafePart part := by
    intro part hpart
    rcases List.mem_cons.mp hpart with rfl | hpart
    · exact ⟨by decide, by decide, by decide, by decide, by decide, by decide⟩
    · rw [List.mem_singleton.mp hpart]
      exact ⟨by decide, by decide, by decide, by decide, by decide, by decide⟩
  exact serve_of_encodes (List.cons_ne_nil (str "a.") [str "j"]) hsafe
    (.literal (by decide) (by decide) (.escaped (by decide)
      (.literal (by decide) (by decide) (.escaped (by decide) .nil))))

end StaticFileHandler

end HttpServer
