import MeterLink.Client.Link
import MeterLink.Proofs.Attempts

/-!
# Short reads

A frame that is cut off anywhere lacks bytes that its header or its length announces
(`wholeSize_take`), so neither reader takes the rest for a smaller frame or for a damaged one. A
transaction over a socket whose buffer is too small for the answer therefore ends with its first
attempt.
-/

namespace MeterLink

namespace Frame

variable {f : Frame} {r : Bytes}

theorem wholeSize_take (h : f.encode = .ok r) {k : Nat} (hk : k < r.length) :
    ∃ needed, k < needed ∧ wholeSize (r.take k) = .error (.truncated needed k) := by
  have hlen := length_encode h
  have hover := (encode_eq_ok_iff.1 h).1
  have htake : (r.take k).length = k := List.length_take_of_le (Nat.le_of_lt hk)
  obtain ⟨rest, rfl⟩ := encode_eq_cons h
  -- Nothing at all, less than a header, or a header that announces more than there is.
  rcases k with _ | k
  · exact ⟨1, by omega, rfl⟩
  · simp only [List.take_succ_cons] at htake ⊢
    by_cases hshort : k + 1 < headerSize
    · refine ⟨headerSize, hshort, ?_⟩
      simp only [wholeSize, ne_eq, not_true_eq_false, if_false, htake, hshort, if_true]
    · obtain ⟨k, rfl⟩ : ∃ n, k = n + 1 := ⟨k - 1, by simp only [headerSize] at hshort; omega⟩
      have hmin : ¬ f.length.toNat < overhead := by omega
      have hcut : k + 1 + 1 < f.length.toNat + 1 := by omega
      refine ⟨f.length.toNat + 1, hcut, ?_⟩
      simp only [List.take_succ_cons] at htake ⊢
      simp only [wholeSize, ne_eq, not_true_eq_false, if_false, htake, hshort, List.headD_cons, hmin,
        hcut, if_true]

theorem decode_take (h : f.encode = .ok r) {k : Nat} (hk : k < r.length) : ∃ needed, k < needed
    ∧ decode (r.take k) = .error (.truncated needed k)
    ∧ decodeVerified (r.take k) = .error (.truncated needed k) := by
  obtain ⟨needed, hlt, hsize⟩ := wholeSize_take h hk
  exact ⟨needed, hlt, decoders_of_error hsize⟩

theorem readFrame_take (settings : TransactionSettings) (h : f.encode = .ok r) (b : Nat) :
    (r.length ≤ b ∧ settings.readFrame (r.take b) = .ok { f with checksum := carried r })
      ∨ b < r.length ∧ ∃ needed, b < needed
        ∧ settings.readFrame (r.take b) = .error (.truncated needed b) := by
  by_cases hb : b < r.length
  · obtain ⟨needed, hlt, hdec, hver⟩ := decode_take h hb
    refine .inr ⟨hb, needed, hlt, ?_⟩
    unfold TransactionSettings.readFrame
    split_ifs
    · exact hver
    · exact hdec
  · refine .inl ⟨by omega, ?_⟩
    rw [List.take_of_length_le (by omega)]
    exact settings.readFrame_encode h

theorem not_retryable_take (settings : TransactionSettings) (h : f.encode = .ok r) (b : Nat) :
    ¬ settings.Retryable (.ok (r.take b)) := by
  rintro (⟨_, _, _, he⟩ | ⟨reply, fault, hreply, hread, hfault⟩)
  · cases he
  · cases hreply
    rcases readFrame_take settings h b with ⟨-, hok⟩ | ⟨-, needed, -, herr⟩
    · rw [hok] at hread
      cases hread
    · rw [herr] at hread
      cases hread
      simp at hfault

/-- Both readers call a frame that was cut off truncated, and say how much of it there is. A
transaction whose first answer is what a read into a buffer of `b` bytes takes of a frame makes one
exchange, and gives the frame if the buffer holds it and the truncation if it does not. -/
theorem short_read (h : f.encode = .ok r) :
    (∀ k < r.length, ∃ needed, k < needed ∧ decode (r.take k) = .error (.truncated needed k)
      ∧ decodeVerified (r.take k) = .error (.truncated needed k))
    ∧ ∀ (peer : Dialogue.Peer) (line : Line) (s : Session) (w : Dialogue.Wire) (data : DataField)
        (frame : Frame) (request : Bytes) (b patience : Nat), line.settings.deadline = none →
      Frame.request (s.nextControl line.settings.sequence).1 data = .ok frame →
      frame.encode = .ok request →
      (peer w.requests request).outcome
        = ((SocketEvent.delivers r).exchange line.endpoint b patience).outcome →
      let out := (transact data).run peer line s w
      out.2.2.exchanges = w.exchanges ++ [(request, peer w.requests request)]
        ∧ (r.length ≤ b → out.1 = .ok { f with checksum := carried r })
        ∧ (b < r.length → ∃ needed, b < needed ∧ out.1 = .error (.codec (.truncated needed b))) := by
  refine ⟨fun k hk => decode_take h hk, ?_⟩
  intro peer line s w data frame request b patience ht hframe henc hout out
  have hbytes : (peer w.requests request).outcome = .ok (r.take b) := hout
  have hlast := not_retryable_take line.settings h b
  rw [← hbytes] at hlast
  obtain ⟨hres, hex⟩ := run_transact_once s ht hframe henc hlast
  rw [hbytes] at hres
  refine ⟨hex, fun hb => ?_, fun hb => ?_⟩
  · rcases readFrame_take line.settings h b with ⟨-, hok⟩ | ⟨hlt, -⟩
    · rw [hres, Line.resultOf, hok]
      rfl
    · omega
  · rcases readFrame_take line.settings h b with ⟨hge, -⟩ | ⟨-, needed, hlt, herr⟩
    · omega
    · refine ⟨needed, hlt, ?_⟩
      rw [hres, Line.resultOf, herr]
      rfl

/-- A buffer of 16 bytes does not hold an answer of 18 bytes; the other two attempts are not made. -/
theorem short_read_small_buffer :
    let answer : Frame := ⟨17, clientAddress, meterAddress, 5, .object ⟨0x600100⟩ .read [], 0⟩
    let reply := answer.unsealed ++ bigEndian 2 (Crc.checksum (answer.unsealed.drop 1)).toNat
    let peer : Dialogue.Peer :=
      .prompt fun _ _ => (SocketEvent.delivers reply).exchange "meter" 16 10000
    let out := (transact (.readObject ⟨0x600100⟩)).run peer ⟨"meter", { maxAttempts := 3 }⟩ {} .fresh
    out.2.2.exchanges.length = 1
      ∧ ∃ needed, 16 < needed ∧ out.1 = .error (.codec (.truncated needed 16)) := by
  intro answer reply peer out
  have hreply : answer.encode = .ok reply := encode_eq_ok_iff.2 ⟨by decide, rfl⟩
  obtain ⟨hex, -, hshort⟩ := (short_read hreply).2 peer ⟨"meter", { maxAttempts := 3 }⟩ {} .fresh
    (.readObject ⟨0x600100⟩) _ _ 16 10000 rfl (make_eq_ok_iff.2 ⟨by decide, rfl⟩)
    (encode_eq_ok_iff.2 ⟨by decide, rfl⟩) rfl
  exact ⟨by rw [hex]; rfl, hshort (by rw [length_encode hreply]; decide)⟩

end Frame

end MeterLink
