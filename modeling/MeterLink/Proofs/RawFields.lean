import Mathlib.Data.List.TakeDrop
import MeterLink.Proofs.Requests

/-!
# Raw fields

A field that was read from bytes is written back to the same bytes, but for what follows the block
of a profile log, which is not kept (`encode_of_decode`). So the bytes of a raw field travel
unchanged in every request of its transaction when they are those of an object or at most 85, and
lose their end otherwise.
-/

namespace MeterLink

theorem ObjectId.bytes_ofBytes (b₀ b₁ b₂ : UInt8) :
    (ObjectId.ofBytes b₀ b₁ b₂).bytes = [b₀, b₁, b₂] :=
  bigEndian_ofBytes_three b₀ b₁ b₂

theorem Access.flag_of_ofFlag {flag : UInt8} {access : Access} (h : ofFlag flag = .ok access) :
    access.flag = flag := by
  rcases ofFlag_cases flag with ⟨_, h', hflag⟩ | ⟨-, h'⟩
  · rw [h'] at h
    cases h
    exact hflag
  · rw [h'] at h
    cases h

theorem FieldFormat.tag_of_ofTag {tag : UInt8} {format : FieldFormat} (h : ofTag tag = .ok format) :
    format.tag = tag := by
  rcases ofTag_cases tag with ⟨_, h', htag⟩ | ⟨-, h'⟩
  · rw [h'] at h
    cases h
    exact htag
  · rw [h'] at h
    cases h

theorem FieldFormat.eq_object_iff (format : FieldFormat) : format = .object ↔ format.tag = 1 := by
  rcases format with _ | ⟨_ | _⟩ <;> decide

/-- The part of a raw field that its frame holds: an object's in full, a profile's up to the end
of its block. -/
def sentPart (field : Bytes) : Bytes := if field.head? = some 1 then field else field.take 85

theorem sentPart_eq_self_iff (field : Bytes) :
    sentPart field = field ↔ field.head? = some 1 ∨ field.length ≤ 85 := by
  by_cases hobject : field.head? = some 1
  · simp only [sentPart, hobject, if_true, true_or]
  · simp only [sentPart, hobject, if_false, false_or, List.take_eq_self_iff]

namespace DataField

theorem body_of_decodeObject : ∀ {body : Bytes} {data : DataField}, decodeObject body = .ok data →
    data.format = .object ∧ data.body = body
  | b₀ :: b₁ :: b₂ :: flag :: payload, data, h => by
    rcases hflag : Access.ofFlag flag with e | access
    · simp only [decodeObject, hflag] at h
      cases h
    · simp only [decodeObject, hflag] at h
      cases h
      refine ⟨rfl, ?_⟩
      simp only [body, ObjectId.bytes_ofBytes, Access.flag_of_ofFlag hflag, List.cons_append,
        List.nil_append]
  | [], _, h | [_], _, h | [_, _], _, h | [_, _, _], _, h => by cases h

theorem body_of_decodeProfile {log : ProfileLog} : ∀ {body : Bytes} {data : DataField},
    decodeProfile log body = .ok data → data.format = .profile log ∧ data.body = body.take 84
  | t₀ :: t₁ :: t₂ :: t₃ :: rest, data, h => by
    have htime : littleEndian 4 (UInt32.ofNat (ofLittleEndian [t₀, t₁, t₂, t₃])).toNat
        = [t₀, t₁, t₂, t₃] := littleEndian_u32 rfl
    simp only [decodeProfile] at h
    split_ifs at h with hempty hblock
    · cases h
      rw [List.isEmpty_iff.1 hempty]
      exact ⟨rfl, by rw [body, htime]; rfl⟩
    · cases h
      exact ⟨rfl, by rw [body, htime]; rfl⟩
  | [], _, h | [_], _, h | [_, _], _, h | [_, _, _], _, h => by cases h

theorem encode_of_decode : ∀ {field : Bytes} {data : DataField}, decode field = .ok data →
    data.encode = sentPart field
  | tag :: rest, data, h => by
    simp only [decode] at h
    rcases htag : FieldFormat.ofTag tag with e | format
    · rw [htag] at h
      cases h
    · rw [htag] at h
      have ht := FieldFormat.tag_of_ofTag htag
      cases format with
      | object =>
        obtain ⟨hformat, hbody⟩ := body_of_decodeObject h
        have hobject : (tag :: rest).head? = some 1 := by
          rw [List.head?_cons, ← ht]
          rfl
        rw [encode, hformat, hbody, ht, sentPart, if_pos hobject]
      | profile log =>
        obtain ⟨hformat, hbody⟩ := body_of_decodeProfile h
        have hother : (tag :: rest).head? ≠ some 1 := by
          rw [List.head?_cons, ← ht]
          cases log <;> decide
        rw [encode, hformat, hbody, ht, sentPart, if_neg hother, List.take_succ_cons]
  | [], _, h => by cases h

/-- A field that was read says by its first byte which format it has. -/
theorem head?_of_decode {field : Bytes} {data : DataField} (h : decode field = .ok data) :
    field.head? = some data.format.tag := by
  have hhead : (sentPart field).head? = field.head? := by
    unfold sentPart
    split_ifs
    · rfl
    · rw [List.head?_take, if_neg (by decide)]
  rw [← hhead, ← encode_of_decode h]
  rfl

theorem head?_eq_one_iff {field : Bytes} {data : DataField} (h : decode field = .ok data) :
    field.head? = some 1 ↔ data.format = .object := by
  rw [head?_of_decode h, Option.some.injEq, FieldFormat.eq_object_iff]

theorem size_of_decode {field : Bytes} {data : DataField} (h : decode field = .ok data) :
    data.size = if data.format = .object then field.length else min 85 field.length := by
  rw [← length_encode, encode_of_decode h, sentPart]
  simp only [head?_eq_one_iff h]
  split_ifs
  · rfl
  · rw [List.length_take]

/-- A profile log has no block or a whole one. -/
theorem size_of_profile {data : DataField} (h : data.format ≠ .object) :
    data.size = 5 ∨ data.size = 85 := by
  rcases data with ⟨id, access, payload⟩ | ⟨log, time, _ | block⟩
  · exact absurd rfl h
  · exact .inl rfl
  · exact .inr (by rw [size, payload, block.length_bytes])

theorem size_le_of_decode {field : Bytes} {data : DataField} (h : decode field = .ok data) :
    data.size ≤ field.length := by
  rw [size_of_decode h]
  split_ifs
  · exact Nat.le_refl _
  · exact Nat.min_le_right ..

end DataField

section Run

variable (peer : Dialogue.Peer) (line : Line) (s : Session) (w : Dialogue.Wire)

theorem run_sendRaw_error {field : Bytes} {e : CodecFault} (h : DataField.decode field = .error e) :
    (sendRaw field).run peer line s w = (.error (.codec e), s, w) := by
  rw [sendRaw, ClientM.run_bind, ClientM.run_lift_codec, h]
  rfl

theorem run_sendRaw_ok {field : Bytes} {data : DataField} (h : DataField.decode field = .ok data) :
    (sendRaw field).run peer line s w = (((transact data).run peer line s w).1.map (·.data.payload),
      ((transact data).run peer line s w).2) := by
  rw [sendRaw, ClientM.run_bind, ClientM.run_lift_codec, h]
  exact ClientM.run_map ..

/-- A raw field that is sent at all is sent in frames that hold it, and of a profile field what
goes up to the end of its block. -/
theorem run_sendRaw_requests (field : Bytes) :
    let out := (sendRaw field).run peer line s w
    ∃ sent, out.2.2.requests = w.requests ++ sent ∧ (sent = [] → ∃ e, out.1 = .error e)
      ∧ (∀ request ∈ sent, (∃ f, Frame.decodeVerified request = .ok f)
        ∧ request[1]?.map UInt8.toNat = some (12 + (sentPart field).length)
        ∧ (request.drop 11).take (request.length - 13) = sentPart field)
      ∧ (sentPart field = field ↔ field.head? = some 1 ∨ field.length ≤ 85) := by
  intro out
  have hwhole := sentPart_eq_self_iff field
  rcases hdec : DataField.decode field with e | data
  · have hout : out = (.error (.codec e), s, w) := run_sendRaw_error peer line s w hdec
    exact ⟨[], by rw [hout, List.append_nil], fun _ => ⟨_, by rw [hout]⟩, by simp, hwhole⟩
  · have hout := run_sendRaw_ok peer line s w hdec
    have hsent := DataField.encode_of_decode hdec
    have hsize : (sentPart field).length = data.size := by rw [← hsent, DataField.length_encode]
    by_cases hfit : data.size ≤ 243
    · obtain ⟨k, result, s', w', hrun, hreq, -, hzero⟩ := run_transact_requests peer line s w hfit
      rw [hrun] at hout
      refine ⟨_, (congrArg (·.2.2.requests) hout).trans hreq, fun hnil => ?_, ?_, hwhole⟩
      · obtain ⟨-, e, rfl⟩ := hzero ((List.replicate_eq_nil_iff _).1 hnil)
        exact ⟨e, congrArg (·.1) hout⟩
      · intro request hmem
        rw [List.eq_of_mem_replicate hmem, hsize, ← hsent]
        obtain ⟨f, hread, -⟩ := DataField.decodeVerified_requestBytes hfit
          (s.nextControl line.settings.sequence).1
        exact ⟨⟨f, hread⟩, DataField.length_requestBytes hfit _, DataField.field_requestBytes _ _⟩
    · rw [run_transact_tooLong peer line s w (Nat.lt_of_not_le hfit)] at hout
      exact ⟨[], (congrArg (·.2.2.requests) hout).trans (List.append_nil _).symm,
        fun _ => ⟨_, congrArg (·.1) hout⟩, by simp, hwhole⟩

/-- The last byte of 86 is lost. -/
theorem run_sendRaw_profile_cut :
    let field : Bytes := 3 :: List.replicate 84 0 ++ [0xff]
    let out := (sendRaw field).run (.prompt fun _ _ => .answered []) ⟨"meter", {}⟩ {} .fresh
    (out.2.2.requests.map fun r => (r.drop 11).take (r.length - 13)) = [field.take 85]
      ∧ field.take 85 ≠ field := by
  decide +kernel

end Run

end MeterLink
