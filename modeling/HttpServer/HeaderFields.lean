/-
  Header lines — from the bytes of a header section to the header table of a request.

  `parse` splits the section at LF, drops one trailing CR a line and keeps the lines up to the first
  empty one, joined by LF, in `headers_raw`; `build_request` splits that text at LF again and puts
  what stands before and behind the first colon of a line into the table.

  1. **The lines in between** — `fieldLines` is what the detour over `headers_raw` amounts to: no
     line has an LF in it, so splitting undoes joining (`getlines_collected`).

  2. **The table** — it is built by insertion alone, so it is `ofPairs` of what the lines split into
     (`headers_buildRequest`), and a lookup in it is the last pair with that key
     (`lookup_ofPairs`).
-/
import HttpServer.ContentLength
import HttpServer.RequestLine
import Mathlib.Data.List.Induction

namespace HttpServer

open ListSearch

/-! ## Tables built by insertion -/

/-- The table after inserting the pairs one by one. -/
def HeaderMap.ofPairs (pairs : List (Bytes × Bytes)) : HeaderMap :=
  pairs.foldl (fun m p => m.insert p.1 p.2) ∅

theorem HeaderMap.ofPairs_snoc (pairs : List (Bytes × Bytes)) (p : Bytes × Bytes) :
    HeaderMap.ofPairs (pairs ++ [p]) = (HeaderMap.ofPairs pairs).insert p.1 p.2 := by
  rw [HeaderMap.ofPairs, List.foldl_append]
  rfl

/-- **A lookup finds the last pair with the key.** -/
theorem HeaderMap.lookup_ofPairs (pairs : List (Bytes × Bytes)) (key : Bytes) :
    (HeaderMap.ofPairs pairs).lookup key =
      (pairs.reverse.find? fun p => p.1 = key).map Prod.snd := by
  induction pairs using List.reverseRecOn with
  | nil => rfl
  | append_singleton pairs p ih =>
    rw [HeaderMap.ofPairs_snoc, List.reverse_append, List.reverse_singleton, List.singleton_append]
    by_cases hp : p.1 = key
    · rw [List.find?_cons_of_pos (by simpa using hp), ← hp, AList.lookup_insert]
      rfl
    · rw [List.find?_cons_of_neg (by simpa using hp), AList.lookup_insert_ne (Ne.symm hp), ih]

theorem HeaderMap.mem_ofPairs {pairs : List (Bytes × Bytes)} {key : Bytes} :
    key ∈ HeaderMap.ofPairs pairs ↔ key ∈ pairs.map Prod.fst := by
  induction pairs using List.reverseRecOn with
  | nil => simp [HeaderMap.ofPairs]
  | append_singleton pairs p ih =>
    rw [HeaderMap.ofPairs_snoc, AList.mem_insert, ih, List.map_append]
    simp [or_comm]

/-- **Pairs with distinct keys are the entries of their table.** -/
theorem HeaderMap.entries_ofPairs {pairs : List (Bytes × Bytes)}
    (h : (pairs.map Prod.fst).Nodup) :
    ((HeaderMap.ofPairs pairs).entries.map fun e => (e.1, e.2)).Perm pairs := by
  induction pairs using List.reverseRecOn with
  | nil => exact List.Perm.refl _
  | append_singleton pairs p ih =>
    rw [List.map_append, List.nodup_append'] at h
    obtain ⟨hpairs, -, hdisj⟩ := h
    have hnew : p.1 ∉ HeaderMap.ofPairs pairs := fun hm =>
      hdisj (HeaderMap.mem_ofPairs.mp hm) (List.mem_singleton_self _)
    rw [HeaderMap.ofPairs_snoc, AList.insert_of_notMem hnew]
    exact ((ih hpairs).cons p).trans (@List.perm_append_comm _ [p] pairs)

/-! ## The lines of a header section -/

/-- The header lines that reach the table: those behind the first line, without their line ends, up
    to the first empty one. -/
def fieldLines (headersSection : Bytes) : List Bytes :=
  ((getlines headersSection).tail.map (popBack 13)).takeWhile (· ≠ [])

theorem collectHeaders_eq (lines : List Bytes) :
    collectHeaders lines =
      (((lines.map (popBack 13)).takeWhile (· ≠ [])).map (· ++ [10])).flatten := by
  induction lines with
  | nil => rfl
  | cons line lines ih =>
    rw [collectHeaders, List.map_cons]
    by_cases hl : popBack 13 line = []
    · rw [if_pos hl, List.takeWhile_cons_of_neg (by simpa using hl)]
      rfl
    · rw [if_neg hl, List.takeWhile_cons_of_pos (by simpa using hl), List.map_cons,
        List.flatten_cons, ih]

theorem lf_not_mem_getlines {s line : Bytes} (h : line ∈ getlines s) : 10 ∉ line := by
  induction s generalizing line with
  | nil => cases h
  | cons b s ih =>
    rw [getlines] at h
    split at h
    · rcases List.mem_cons.mp h with rfl | h
      · exact List.not_mem_nil
      · exact ih h
    · rename_i hb
      cases hs : getlines s with
      | nil =>
        rw [hs] at h
        rw [List.mem_singleton.mp h, List.mem_singleton]
        exact Ne.symm hb
      | cons first lines =>
        rw [hs] at h
        rcases List.mem_cons.mp h with rfl | h
        · rintro hm
          rcases List.mem_cons.mp hm with rfl | hm
          · exact hb rfl
          · exact ih (hs ▸ List.mem_cons_self ..) hm
        · exact ih (hs ▸ List.mem_cons_of_mem _ h)

theorem mem_of_mem_popBack {b c : Byte} {line : Bytes} (h : c ∈ popBack b line) : c ∈ line := by
  unfold popBack at h
  split at h
  · exact List.mem_of_mem_dropLast h
  · exact h

theorem lf_not_mem_fieldLines {s line : Bytes} (h : line ∈ fieldLines s) : 10 ∉ line := by
  obtain ⟨line', hline', rfl⟩ := List.mem_map.mp ((List.takeWhile_sublist _).mem h)
  exact fun hm => lf_not_mem_getlines (List.mem_of_mem_tail hline') (mem_of_mem_popBack hm)

/-- **Splitting at LF undoes joining by LF.** -/
theorem getlines_collected {lines : List Bytes} (h : ∀ line ∈ lines, 10 ∉ line) :
    getlines ((lines.map (· ++ [10])).flatten) = lines := by
  induction lines with
  | nil => rfl
  | cons line lines ih =>
    rw [List.map_cons, List.flatten_cons, List.append_assoc]
    show getlines (line ++ 10 :: (lines.map (· ++ [10])).flatten) = line :: lines
    rw [getlines_append (h line (List.mem_cons_self ..)),
      ih fun l hl => h l (List.mem_cons_of_mem line hl)]

/-! ## From the lines to the table -/

theorem readHeader_eq {line : Bytes} (h : 10 ∉ line) (headers : HeaderMap) :
    readHeader headers line =
      match splitHeader line with
      | some (key, value) => headers.insert key value
      | none => headers := by
  have hpop : popBack 10 line = line := if_neg fun hl => h (List.mem_of_getLast? hl)
  unfold readHeader
  rw [hpop]
  by_cases hl : line = []
  · rw [if_pos hl, hl]
    rfl
  · exact if_neg hl

/-- The loop of `build_request` inserts what the lines split into. -/
theorem foldl_readHeader {lines : List Bytes} (h : ∀ line ∈ lines, 10 ∉ line) :
    lines.foldl readHeader ∅ = HeaderMap.ofPairs (lines.filterMap splitHeader) := by
  induction lines using List.reverseRecOn with
  | nil => rfl
  | append_singleton lines line ih =>
    have hline := h line (by simp)
    rw [List.foldl_append, ih fun l hl => h l (List.mem_append_left _ hl), List.foldl_cons,
      List.foldl_nil, readHeader_eq hline, List.filterMap_append]
    cases hs : splitHeader line with
    | none => simp [hs]
    | some p => simp [hs, HeaderMap.ofPairs_snoc]

theorem getlines_headersRaw (lines : List Bytes) (h : ∀ line ∈ lines, 10 ∉ line) :
    getlines (collectHeaders lines) = (lines.map (popBack 13)).takeWhile (· ≠ []) := by
  rw [collectHeaders_eq, getlines_collected]
  intro line hline
  obtain ⟨line', hline', rfl⟩ := List.mem_map.mp ((List.takeWhile_sublist _).mem hline)
  exact fun hm => h line' hline' (mem_of_mem_popBack hm)

/-! ## Accepted requests -/

/-- **The head of an accepted request**: the first three tokens of the first line, and the lines
    behind it. -/
theorem parseHead_of_tokens {s method target version : Bytes} {more : List Bytes}
    (ht : tokens (firstLine s) = method :: target :: version :: more)
    (hv : str "HTTP/" <+: version) :
    parseHead s =
      { method, path := target, version, hasHeaders := true,
        headersRaw := collectHeaders (getlines s).tail } := by
  unfold firstLine at ht
  unfold parseHead
  cases hl : getlines s with
  | nil =>
    rw [hl] at ht
    cases ht
  | cons line lines =>
    rw [hl] at ht
    simp only [readRequestLine_of_tokens ht, find_eq_zero_iff.mpr hv, Bool.not_true,
      Bool.false_eq_true, if_false, ne_eq, not_true_eq_false, List.tail_cons]

/-- What `parse` goes through before it returns NONE. -/
theorem parse_error_none_inv {raw : Bytes} {maxHeaderSize maxBodySize : Nat}
    (h : (parse raw maxHeaderSize maxBodySize).error = .none) :
    ∃ (H : HeaderSection) (body : Bytes), raw = H.bytes ++ body ∧
      H.bytes.length ≤ maxHeaderSize ∧ (parseHead H.head).error = .none ∧
        parse raw maxHeaderSize maxBodySize =
          frameBody (parseHead H.head) (locateLength H.bytes) body maxBodySize := by
  cases hfind : find crlfcrlf raw with
  | none => simp [parse, hfind] at h
  | some headerEnd =>
    obtain ⟨H, body, rfl, -⟩ := exists_cut hfind
    rw [H.parse_append] at h ⊢
    by_cases hbig : H.bytes.length > maxHeaderSize
    · rw [if_pos hbig] at h
      cases h
    · rw [if_neg hbig] at h ⊢
      by_cases hhead : (parseHead H.head).error ≠ .none
      · rw [if_pos hhead] at h
        exact absurd h hhead
      · rw [if_neg hhead]
        exact ⟨H, body, rfl, Nat.not_lt.mp hbig, not_not.mp hhead, rfl⟩

/-- `frameBody` sets the error and the body, and nothing else. -/
theorem frameBody_headersRaw (result : ParseResult) (located : Located) (bodyData : Bytes)
    (maxBodySize : Nat) :
    (frameBody result located bodyData maxBodySize).headersRaw = result.headersRaw := by
  unfold frameBody
  split
  · rfl
  · rfl
  · split
    · rfl
    · split
      · rfl
      · split <;> rfl

/-- **The header table of an accepted request.** -/
theorem headers_buildRequest {raw : Bytes} {maxHeaderSize maxBodySize : Nat} {H : HeaderSection}
    {body : Bytes} (hhead : (parseHead H.head).error = .none)
    (hparse : parse raw maxHeaderSize maxBodySize =
      frameBody (parseHead H.head) (locateLength H.bytes) body maxBodySize) :
    (buildRequest (parse raw maxHeaderSize maxBodySize)).headers =
      HeaderMap.ofPairs ((fieldLines H.head).filterMap splitHeader) := by
  obtain ⟨method, target, version, more, ht, hv⟩ := (parseHead_error_eq_none_iff _).mp hhead
  have hraw : (parse raw maxHeaderSize maxBodySize).headersRaw =
      collectHeaders (getlines H.head).tail := by
    rw [hparse, frameBody_headersRaw, parseHead_of_tokens ht hv]
  show (getlines (parse raw maxHeaderSize maxBodySize).headersRaw).foldl readHeader ∅ = _
  rw [hraw, getlines_headersRaw _ fun line hl => lf_not_mem_getlines (List.mem_of_mem_tail hl)]
  exact foldl_readHeader fun line hl => lf_not_mem_fieldLines hl

end HttpServer
