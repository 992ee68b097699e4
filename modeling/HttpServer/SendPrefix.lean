/-
  The bytes on the wire — what one `send_all` transmits, and what it asks `send` for.

  1. **Specification** — `deliveries` pairs the calls that have come back with what they gave, and
     `delivered` is the stream that the peer gets from them.  `TransmitsOnce` says what `send_all`
     does with its buffer.

  2. **The crux (`delivered_eq`)** — offset and remaining length stay in step: what is in front of
     the offset, with what was delivered behind it, is the front of the buffer again.  It needs that
     `send` accepts no more than it was asked for (`WithinRequest`), and that the length goes
     through the `static_cast<int>` unharmed.

  3. **The cast (`toSizeT_castInt`)** — the count that `send` gets for `n` bytes is `n` modulo
     2^32, if that is below 2^31, and close to 2^64 otherwise.

  4. **Bridge** — `mem_sendLoop_iff` lists the calls by the parts of the script in front of them, so
     `sendAll_in_buffer_iff` is about the lengths that are left behind these.
-/
import HttpServer.BytesSent

namespace HttpServer

/-! ## The calls -/

/-- What some outcomes accepted together. -/
def acceptedSum (outcomes : List SendOutcome) : Nat := (outcomes.map SendOutcome.bytes).sum

@[simp] theorem acceptedSum_nil : acceptedSum [] = 0 := rfl

@[simp] theorem acceptedSum_cons (outcome : SendOutcome) (outcomes : List SendOutcome) :
    acceptedSum (outcome :: outcomes) = outcome.bytes + acceptedSum outcomes :=
  List.sum_cons

variable {len totalSent : Nat} {script : List SendOutcome}

/-- **The calls**: one for each part of the script that holds no error and leaves something to
    send. -/
theorem mem_sendLoop_iff {call : SendCall} :
    call ∈ (sendLoop len script totalSent).1 ↔
      ∃ before, before <+: script ∧ .error ∉ before ∧ totalSent + acceptedSum before < len ∧
        call = ⟨totalSent + acceptedSum before,
          castInt (len - (totalSent + acceptedSum before))⟩ := by
  induction script generalizing totalSent with
  | nil =>
    by_cases hlt : totalSent < len
    · rw [sendLoop_nil hlt, List.mem_singleton]
      constructor
      · intro hcall
        exact ⟨[], List.nil_prefix, List.not_mem_nil, hlt, hcall⟩
      · rintro ⟨before, hpre, -, -, hcall⟩
        rw [List.prefix_nil.mp hpre] at hcall
        exact hcall
    · rw [sendLoop_done (by omega)]
      refine iff_of_false List.not_mem_nil ?_
      rintro ⟨before, -, -, hlen, -⟩
      omega
  | cons outcome rest ih =>
    by_cases hlt : totalSent < len
    · by_cases herror : outcome = .error
      · rw [herror, sendLoop_error hlt, List.mem_singleton]
        constructor
        · intro hcall
          exact ⟨[], List.nil_prefix, List.not_mem_nil, hlt, hcall⟩
        · rintro ⟨before, hpre, hnone, -, hcall⟩
          rcases List.prefix_cons_iff.mp hpre with rfl | ⟨before', rfl, -⟩
          · exact hcall
          · exact absurd (List.mem_cons_self ..) hnone
      · rw [sendLoop_cons hlt herror, List.mem_cons, ih]
        constructor
        · rintro (hcall | ⟨before, hpre, hnone, hlen, hcall⟩)
          · exact ⟨[], List.nil_prefix, List.not_mem_nil, hlt, hcall⟩
          · refine ⟨outcome :: before, List.cons_prefix_cons.mpr ⟨rfl, hpre⟩, ?_, ?_, ?_⟩
            · exact List.not_mem_cons_of_ne_of_not_mem (Ne.symm herror) hnone
            · rw [acceptedSum_cons]
              omega
            · rw [hcall, acceptedSum_cons, Nat.add_assoc]
        · rintro ⟨before, hpre, hnone, hlen, hcall⟩
          rcases List.prefix_cons_iff.mp hpre with rfl | ⟨before', rfl, hrest⟩
          · exact Or.inl hcall
          · refine Or.inr ⟨before', hrest, ?_, ?_, ?_⟩
            · exact List.not_mem_of_not_mem_cons hnone
            · rw [acceptedSum_cons] at hlen
              omega
            · rw [hcall, acceptedSum_cons, Nat.add_assoc]
    · rw [sendLoop_done (by omega)]
      refine iff_of_false List.not_mem_nil ?_
      rintro ⟨before, -, -, hlen, -⟩
      omega

/-! ## The cast -/

/-- What `send` gets for an `int` where it takes a `size_t`. -/
def toSizeT (count : Int) : Nat := (count % 2 ^ 64).toNat

/-- **There and back**: a length narrowed to an `int` and widened again. -/
theorem toSizeT_castInt (n : Nat) :
    toSizeT (castInt n) =
      if n % 2 ^ 32 < 2 ^ 31 then n % 2 ^ 32 else 2 ^ 64 - 2 ^ 32 + n % 2 ^ 32 := by
  unfold toSizeT castInt
  split <;> omega

/-- A length below 2^31 is not touched. -/
theorem toSizeT_castInt_of_lt {n : Nat} (h : n < 2 ^ 31) : toSizeT (castInt n) = n := by
  unfold toSizeT castInt
  omega

/-- `AskedWithin n` — the count for `n` bytes is one of `1` to `n`. -/
def AskedWithin (n : Nat) : Prop :=
  (1 ≤ n % 2 ^ 32 ∧ n % 2 ^ 32 < 2 ^ 31) ∨ 2 ^ 64 - 2 ^ 31 ≤ n

theorem askedWithin_iff {n : Nat} (h : n < 2 ^ 64) :
    AskedWithin n ↔ 1 ≤ toSizeT (castInt n) ∧ toSizeT (castInt n) ≤ n := by
  rw [toSizeT_castInt, AskedWithin]
  split <;> omega

/-! ## What was delivered -/

/-- The calls that have come back, with what they gave. -/
def deliveries (len : Nat) (script : List SendOutcome) (totalSent : Nat) :
    List (SendCall × SendOutcome) :=
  (sendLoop len script totalSent).1.zip script

/-- `send` accepts no more than it was asked for, where its length is read as the `std::size_t` that
    `send` takes it for. -/
def WithinRequest (len : Nat) (script : List SendOutcome) (totalSent : Nat) : Prop :=
  ∀ delivery ∈ deliveries len script totalSent, delivery.2.bytes ≤ toSizeT delivery.1.count

instance : Decidable (WithinRequest len script totalSent) :=
  inferInstanceAs (Decidable (∀ delivery ∈ deliveries len script totalSent, _))

/-- The bytes that some calls handed over, one after the other: each from its own offset on, as
    many as were accepted. -/
def delivered (data : Bytes) (done : List (SendCall × SendOutcome)) : Bytes :=
  done.flatMap fun delivery => (data.drop delivery.1.offset).take delivery.2.bytes

/-- How many these are. -/
def deliveredSum (done : List (SendCall × SendOutcome)) : Nat := acceptedSum (done.map Prod.snd)

theorem deliveries_done (h : len ≤ totalSent) : deliveries len script totalSent = [] := by
  rw [deliveries, sendLoop_done h, List.zip_nil_left]

theorem deliveries_nil : deliveries len [] totalSent = [] := by
  rw [deliveries, List.zip_nil_right]

theorem deliveries_error (h : totalSent < len) :
    deliveries len (.error :: script) totalSent =
      [(⟨totalSent, castInt (len - totalSent)⟩, .error)] := by
  rw [deliveries, sendLoop_error h, List.zip_cons_cons, List.zip_nil_left]

theorem deliveries_cons {outcome : SendOutcome} (h : totalSent < len) (hne : outcome ≠ .error) :
    deliveries len (outcome :: script) totalSent =
      (⟨totalSent, castInt (len - totalSent)⟩, outcome) ::
        deliveries len script (totalSent + outcome.bytes) := by
  rw [deliveries, sendLoop_cons h hne, List.zip_cons_cons]
  rfl

/-- A success below 2^31 bytes does not run past the end of the buffer. -/
theorem WithinRequest.le_of_cons {outcome : SendOutcome} (hlen : len < 2 ^ 31)
    (h : totalSent < len) (hne : outcome ≠ .error)
    (hwithin : WithinRequest len (outcome :: script) totalSent) :
    totalSent + outcome.bytes ≤ len ∧
      WithinRequest len script (totalSent + outcome.bytes) := by
  rw [WithinRequest, deliveries_cons h hne, List.forall_mem_cons] at hwithin
  obtain ⟨hfirst, hrest⟩ := hwithin
  have haccepted : outcome.bytes ≤ toSizeT (castInt (len - totalSent : Nat)) := hfirst
  rw [toSizeT_castInt_of_lt (by omega)] at haccepted
  exact ⟨by omega, hrest⟩

/-- **The invariant of the loop**: at any time, what was delivered is what the buffer has behind
    the offset that the loop started from, and the next offset is inside of the buffer. -/
theorem delivered_eq (data : Bytes) (hlen : data.length < 2 ^ 31) (script : List SendOutcome) :
    ∀ (totalSent n : Nat), totalSent ≤ data.length → WithinRequest data.length script totalSent →
      data.take totalSent ++ delivered data ((deliveries data.length script totalSent).take n) =
          data.take
            (totalSent + deliveredSum ((deliveries data.length script totalSent).take n)) ∧
        totalSent + deliveredSum ((deliveries data.length script totalSent).take n) ≤
          data.length := by
  -- nothing has come back
  have hnothing : ∀ totalSent, totalSent ≤ data.length →
      data.take totalSent ++ delivered data [] = data.take (totalSent + deliveredSum []) ∧
        totalSent + deliveredSum [] ≤ data.length := by
    intro totalSent hle
    exact ⟨List.append_nil _, hle⟩
  induction script with
  | nil =>
    intro totalSent n hle _
    rw [deliveries_nil, List.take_nil]
    exact hnothing totalSent hle
  | cons outcome rest ih =>
    intro totalSent n hle hwithin
    by_cases hlt : totalSent < data.length
    · cases n with
      | zero =>
        rw [List.take_zero]
        exact hnothing totalSent hle
      | succ n =>
        by_cases herror : outcome = .error
        · subst herror
          rw [deliveries_error hlt, List.take_succ_cons, List.take_nil]
          refine ⟨?_, hle⟩
          show data.take totalSent ++ [] = data.take totalSent
          rw [List.append_nil]
        · obtain ⟨hnext, hrest⟩ := hwithin.le_of_cons hlen hlt herror
          obtain ⟨hdata, hsum⟩ := ih (totalSent + outcome.bytes) n hnext hrest
          rw [deliveries_cons hlt herror, List.take_succ_cons]
          generalize (deliveries data.length rest (totalSent + outcome.bytes)).take n = done
            at hdata hsum
          have htotal : deliveredSum ((⟨totalSent, castInt (data.length - totalSent)⟩, outcome)
              :: done) = outcome.bytes + deliveredSum done := acceptedSum_cons _ _
          rw [htotal, ← Nat.add_assoc]
          refine ⟨?_, hsum⟩
          -- the first slice continues what was in front of the offset
          show data.take totalSent ++
            ((data.drop totalSent).take outcome.bytes ++ delivered data done) = _
          rw [← List.append_assoc, ← List.take_add, hdata]
    · rw [deliveries_done (by omega), List.take_nil]
      exact hnothing totalSent hle

/-! ## How it ends -/

/-- It fails exactly when an error comes before everything is accepted. -/
theorem sendLoop_returned_false_iff :
    (sendLoop len script totalSent).2 = .returned false ↔
      ∃ before behind, script = before ++ .error :: behind ∧ .error ∉ before ∧
        totalSent + acceptedSum before < len := by
  induction script generalizing totalSent with
  | nil =>
    refine iff_of_false ?_ ?_
    · by_cases hlt : totalSent < len
      · rw [sendLoop_nil hlt]
        exact SendEnd.noConfusion
      · rw [sendLoop_done (by omega)]
        simp
    · rintro ⟨before, behind, hnil, -⟩
      simp at hnil
  | cons outcome rest ih =>
    by_cases hlt : totalSent < len
    · by_cases herror : outcome = .error
      · subst herror
        rw [sendLoop_error hlt]
        exact iff_of_true rfl ⟨[], rest, rfl, List.not_mem_nil, hlt⟩
      · rw [sendLoop_cons hlt herror, ih]
        constructor
        · rintro ⟨before, behind, rfl, hnone, hlen⟩
          refine ⟨outcome :: before, behind, rfl, ?_, ?_⟩
          · exact List.not_mem_cons_of_ne_of_not_mem (Ne.symm herror) hnone
          · rw [acceptedSum_cons]
            omega
        · rintro ⟨before, behind, hsplit, hnone, hlen⟩
          cases before with
          | nil => exact absurd (List.cons.inj hsplit).1 herror
          | cons first before =>
            obtain ⟨rfl, hrest⟩ := List.cons.inj hsplit
            refine ⟨before, behind, hrest, ?_, ?_⟩
            · exact List.not_mem_of_not_mem_cons hnone
            · rw [acceptedSum_cons] at hlen
              omega
    · rw [sendLoop_done (by omega)]
      refine iff_of_false (by simp) ?_
      rintro ⟨before, behind, -, -, hlen⟩
      omega

/-- How many of some outcomes are not `EINTR`. -/
def uninterruptedSends (outcomes : List SendOutcome) : Nat :=
  (outcomes.filter (· ≠ .eintr)).length

/-- One outcome, counted so. -/
def SendOutcome.uninterrupted (outcome : SendOutcome) : Nat := if outcome = .eintr then 0 else 1

theorem uninterruptedSends_cons (outcome : SendOutcome) (outcomes : List SendOutcome) :
    uninterruptedSends (outcome :: outcomes) =
      outcome.uninterrupted + uninterruptedSends outcomes := by
  unfold uninterruptedSends SendOutcome.uninterrupted
  by_cases heintr : outcome = .eintr
  · rw [List.filter_cons_of_neg (by simpa using heintr), if_pos heintr, Nat.zero_add]
  · rw [List.filter_cons_of_pos (by simpa using heintr), if_neg heintr, List.length_cons,
      Nat.add_comm]

/-- Only `EINTR` makes no progress. -/
theorem SendOutcome.uninterrupted_le {outcome : SendOutcome} (hne : outcome ≠ .error) :
    outcome.uninterrupted ≤ 1 ∧ outcome.uninterrupted ≤ outcome.bytes := by
  cases outcome with
  | sent bytes pos => exact ⟨Nat.le_refl 1, pos⟩
  | eintr => exact ⟨Nat.zero_le 1, Nat.le_refl 0⟩
  | error => exact absurd rfl hne

/-- There are no more calls without `EINTR` than bytes to send. -/
theorem uninterruptedSends_deliveries_le :
    uninterruptedSends ((deliveries len script totalSent).map Prod.snd) ≤ len - totalSent := by
  induction script generalizing totalSent with
  | nil =>
    rw [deliveries_nil]
    exact Nat.zero_le _
  | cons outcome rest ih =>
    by_cases hlt : totalSent < len
    · by_cases herror : outcome = .error
      · subst herror
        rw [deliveries_error hlt]
        show 1 ≤ len - totalSent
        omega
      · rw [deliveries_cons hlt herror, List.map_cons, uninterruptedSends_cons]
        obtain ⟨hone, hbytes⟩ := SendOutcome.uninterrupted_le herror
        have hrest := @ih (totalSent + outcome.bytes)
        show outcome.uninterrupted + _ ≤ _
        omega
    · rw [deliveries_done (by omega)]
      exact Nat.zero_le _

/-- While it waits, there were fewer outcomes without `EINTR` than bytes to send. -/
theorem uninterruptedSends_lt_of_waiting (h : (sendLoop len script totalSent).2 = .waiting) :
    uninterruptedSends script < len - totalSent := by
  induction script generalizing totalSent with
  | nil =>
    by_cases hlt : totalSent < len
    · show 0 < len - totalSent
      omega
    · rw [sendLoop_done (by omega)] at h
      cases h
  | cons outcome rest ih =>
    by_cases hlt : totalSent < len
    · by_cases herror : outcome = .error
      · subst herror
        rw [sendLoop_error hlt] at h
        cases h
      · rw [sendLoop_cons hlt herror] at h
        have hrest := ih h
        obtain ⟨-, hbytes⟩ := SendOutcome.uninterrupted_le herror
        rw [uninterruptedSends_cons]
        omega
    · rw [sendLoop_done (by omega)] at h
      cases h

/-! ## The buffer, once and in order -/

/-- What `send_all` does with its buffer: each byte once, in order, and a result that tells whether
    it was all. -/
structure TransmitsOnce (data : Bytes) (script : List SendOutcome) : Prop where
  /-- At any time, what was delivered is a prefix of the buffer. -/
  in_order : ∀ n, delivered data ((deliveries data.length script 0).take n) <+: data
  /-- It returns true exactly when the whole buffer was delivered. -/
  returns_true : (sendAll data script).2 = .returned true ↔
    delivered data (deliveries data.length script 0) = data
  /-- It returns false exactly when an error came before that. -/
  returns_false : (sendAll data script).2 = .returned false ↔
    ∃ before behind, script = before ++ .error :: behind ∧ .error ∉ before ∧
      acceptedSum before < data.length
  /-- It makes no more calls without `EINTR` than there are bytes. -/
  calls_le : uninterruptedSends ((deliveries data.length script 0).map Prod.snd) ≤ data.length
  /-- And with so many outcomes it has returned. -/
  returns : data.length ≤ uninterruptedSends script → (sendAll data script).2 ≠ .waiting

/-- What the calls of one `send_all` had accepted is what was delivered. -/
theorem acceptedBytes_eq (data : Bytes) (script : List SendOutcome) :
    acceptedBytes data script = deliveredSum (deliveries data.length script 0) := by
  have hsnd : ∀ (calls : List SendCall) (outcomes : List SendOutcome),
      (calls.zip outcomes).map Prod.snd = outcomes.take calls.length := by
    intro calls
    induction calls with
    | nil => intro outcomes; rfl
    | cons call calls ih =>
      intro outcomes
      cases outcomes with
      | nil => rfl
      | cons outcome outcomes =>
        rw [List.zip_cons_cons, List.map_cons, List.length_cons, List.take_succ_cons, ih]
  rw [acceptedBytes, deliveredSum, deliveries, hsnd]
  rfl

/-- **`send_all` transmits the buffer once, in order**, however `send` splits it and however often
    it is interrupted. -/
theorem sendAll_transmitsOnce (data : Bytes) (script : List SendOutcome)
    (hlen : data.length < 2 ^ 31) (hwithin : WithinRequest data.length script 0) :
    TransmitsOnce data script := by
  have hinv : ∀ n, delivered data ((deliveries data.length script 0).take n) =
        data.take (deliveredSum ((deliveries data.length script 0).take n)) ∧
      deliveredSum ((deliveries data.length script 0).take n) ≤ data.length := by
    intro n
    have h := delivered_eq data hlen script 0 n (Nat.zero_le _) hwithin
    rwa [List.take_zero, List.nil_append, Nat.zero_add] at h
  constructor
  · intro n
    rw [(hinv n).1]
    exact List.take_prefix _ data
  · obtain ⟨hdata, hsum⟩ := hinv (deliveries data.length script 0).length
    rw [List.take_length] at hdata hsum
    rw [sendAll_returned_true_iff, acceptedBytes_eq, hdata]
    constructor
    · intro hall
      exact List.take_of_length_le hall
    · intro hall
      have hlength := congrArg List.length hall
      rw [List.length_take] at hlength
      omega
  · have h := @sendLoop_returned_false_iff data.length 0 script
    simp only [Nat.zero_add] at h
    exact h
  · exact uninterruptedSends_deliveries_le
  · intro henough hwaiting
    have hfew := uninterruptedSends_lt_of_waiting hwaiting
    omega

/-- The theorem on three bytes, sent in two parts with an interruption between them. -/
theorem sendAll_transmitsOnce_abc :
    TransmitsOnce (str "abc") [.sent 1 (by decide), .eintr, .sent 2 (by decide)] :=
  sendAll_transmitsOnce (str "abc") [.sent 1 (by decide), .eintr, .sent 2 (by decide)]
    (by decide) (by decide)

/-! ## The requests -/

/-- Every call is made with an offset inside of the buffer, and asks for at least one byte and no
    more than are left. -/
def RequestsInBuffer (data : Bytes) (script : List SendOutcome) : Prop :=
  ∀ call ∈ (sendAll data script).1,
    call.offset < data.length ∧ 1 ≤ toSizeT call.count ∧
      toSizeT call.count ≤ data.length - call.offset

/-- **The requests stay inside of the buffer exactly where the cast does no harm**: whenever the
    loop comes around, to a length that `AskedWithin` allows. -/
theorem requestsInBuffer_iff (data : Bytes) (script : List SendOutcome)
    (hlen : data.length < 2 ^ 64) :
    RequestsInBuffer data script ↔
      ∀ before, before <+: script → .error ∉ before → acceptedSum before < data.length →
        AskedWithin (data.length - acceptedSum before) := by
  constructor
  · intro h before hpre hnone hlt
    have hcall : (⟨acceptedSum before, castInt (data.length - acceptedSum before : Nat)⟩ : SendCall)
        ∈ (sendAll data script).1 := by
      refine mem_sendLoop_iff.mpr ⟨before, hpre, hnone, ?_, ?_⟩
      · rwa [Nat.zero_add]
      · rw [Nat.zero_add]
    obtain ⟨-, hpos, hle⟩ := h _ hcall
    exact (askedWithin_iff (by omega)).mpr ⟨hpos, hle⟩
  · intro h call hcall
    obtain ⟨before, hpre, hnone, hlt, rfl⟩ := mem_sendLoop_iff.mp hcall
    rw [Nat.zero_add] at hlt ⊢
    obtain ⟨hpos, hle⟩ := (askedWithin_iff (by omega)).mp (h before hpre hnone hlt)
    exact ⟨hlt, hpos, hle⟩

/-- One success that leaves a multiple of 2^32 bytes. -/
def sentDownTo (n : Nat) (h : 0 < n % 2 ^ 32) : List SendOutcome := [.sent (n % 2 ^ 32) h]

/-- `send` may accept so much of a length that is asked for properly. -/
theorem withinRequest_sentDownTo {n : Nat} (h : 0 < n % 2 ^ 32) :
    WithinRequest n (sentDownTo n h) 0 := by
  have hpos : 0 < n := by omega
  have hne : SendOutcome.sent (n % 2 ^ 32) h ≠ .error := by simp
  rw [WithinRequest, sentDownTo, deliveries_cons hpos hne, deliveries_nil, List.forall_mem_singleton]
  show n % 2 ^ 32 ≤ toSizeT (castInt n)
  rw [toSizeT_castInt]
  split <;> omega

/-- **No script is safe for a long buffer, and every script for a short one.** -/
theorem forall_requestsInBuffer_iff (data : Bytes) (hlen : data.length < 2 ^ 64) :
    (∀ script, WithinRequest data.length script 0 → RequestsInBuffer data script) ↔
      data.length < 2 ^ 31 := by
  constructor
  · intro h
    by_contra hlong
    -- the first request is wrong, or the one behind a success that leaves a multiple of 2^32
    by_cases hfirst : AskedWithin data.length
    · obtain ⟨hpos, hlt⟩ :
          0 < data.length % 2 ^ 32 ∧ data.length % 2 ^ 32 < data.length := by
        rcases hfirst with ⟨hpos, hsmall⟩ | hhuge
        · exact ⟨hpos, by omega⟩
        · exact ⟨by omega, by omega⟩
      have hsafe := (requestsInBuffer_iff data _ hlen).mp (h _ (withinRequest_sentDownTo hpos))
      have hsum : acceptedSum (sentDownTo data.length hpos) = data.length % 2 ^ 32 := rfl
      have hnone : SendOutcome.error ∉ sentDownTo data.length hpos := by simp [sentDownTo]
      have hrest := hsafe _ (List.prefix_refl _) hnone
      rw [hsum] at hrest
      rcases hrest hlt with ⟨hone, -⟩ | hhuge
      · omega
      · omega
    · have hwithin : WithinRequest data.length [] 0 := by
        rw [WithinRequest, deliveries_nil]
        exact fun delivery hmem => absurd hmem List.not_mem_nil
      have hsafe := (requestsInBuffer_iff data [] hlen).mp (h [] hwithin)
      have hpos : acceptedSum [] < data.length := by
        rw [acceptedSum_nil]
        omega
      exact hfirst (hsafe [] List.nil_prefix List.not_mem_nil hpos)
  · intro hshort script _
    refine (requestsInBuffer_iff data script hlen).mpr ?_
    intro before _ _ hlt
    refine Or.inl ⟨?_, ?_⟩
    · omega
    · omega

/-- **`send` is asked for bytes of the buffer only**, in a run of `send_all`, exactly when every
    length that is left in it survives the cast; in all runs exactly when the buffer is shorter
    than 2^31 bytes. -/
theorem sendAll_requests (data : Bytes) (hlen : data.length < 2 ^ 64) :
    (∀ script, RequestsInBuffer data script ↔
        ∀ before, before <+: script → .error ∉ before → acceptedSum before < data.length →
          AskedWithin (data.length - acceptedSum before)) ∧
      ((∀ script, WithinRequest data.length script 0 → RequestsInBuffer data script) ↔
        data.length < 2 ^ 31) :=
  ⟨fun script => requestsInBuffer_iff data script hlen, forall_requestsInBuffer_iff data hlen⟩

/-- The theorem on three bytes, of which one is sent. -/
theorem sendAll_requests_abc : RequestsInBuffer (str "abc") [.sent 1 (by decide)] :=
  (sendAll_requests (str "abc") (by decide)).2.mpr (by decide) [.sent 1 (by decide)] (by decide)

/-- For a buffer of 2^31 bytes, the first call asks for more than that. -/
theorem sendAll_requests_long :
    ¬∀ (data : Bytes) (script : List SendOutcome), data.length < 2 ^ 64 →
      WithinRequest data.length script 0 → RequestsInBuffer data script := by
  intro h
  have hlength : (List.replicate (2 ^ 31) (0 : Byte)).length = 2 ^ 31 := List.length_replicate
  have hlen : (List.replicate (2 ^ 31) (0 : Byte)).length < 2 ^ 64 := by
    rw [hlength]
    decide
  have hshort := (forall_requestsInBuffer_iff (List.replicate (2 ^ 31) 0) hlen).mp
    (fun script hwithin => h _ script hlen hwithin)
  rw [hlength] at hshort
  exact absurd hshort (Nat.lt_irrefl _)

end HttpServer
