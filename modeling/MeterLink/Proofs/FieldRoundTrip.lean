import Mathlib.Data.List.Basic
import MeterLink.Wire.DataField

/-!
# Data fields are read back as they were written

Identifiers and times of the meter have fixed widths that their numbers never exceed
(`bigEndian_three`, `littleEndian_four`), so the header of a field gives back what was put into
it, and the rest of the field is its payload (`decode_encode`).
-/

namespace MeterLink

theorem bigEndian_three (v : BitVec 24) : ∃ b₀ b₁ b₂, bigEndian 3 v.toNat = [b₀, b₁, b₂]
    ∧ BitVec.ofNat 24 (ofBigEndian [b₀, b₁, b₂]) = v := by
  obtain ⟨b₀, b₁, b₂, h⟩ := List.length_eq_three.1 (length_bigEndian 3 v.toNat)
  refine ⟨b₀, b₁, b₂, h, ?_⟩
  have hv : v.toNat < 1 <<< (8 * 3) := v.isLt
  rw [← h, ofBigEndian_bigEndian, Nat.mod_eq_of_lt hv, BitVec.ofNat_toNat, BitVec.setWidth_eq]

theorem bigEndian_ofBytes_three (b₀ b₁ b₂ : UInt8) :
    bigEndian 3 (BitVec.ofNat 24 (ofBigEndian [b₀, b₁, b₂])).toNat = [b₀, b₁, b₂] := by
  have hlt : ofBigEndian [b₀, b₁, b₂] < 1 <<< (8 * 3) := ofBigEndian_lt _
  have hnat : (BitVec.ofNat 24 (ofBigEndian [b₀, b₁, b₂])).toNat = ofBigEndian [b₀, b₁, b₂] := by
    rw [BitVec.toNat_ofNat]
    exact Nat.mod_eq_of_lt hlt
  rw [hnat]
  exact bigEndian_ofBigEndian [b₀, b₁, b₂]

theorem littleEndian_four (t : UInt32) : ∃ b₀ b₁ b₂ b₃, littleEndian 4 t.toNat = [b₀, b₁, b₂, b₃]
    ∧ UInt32.ofNat (ofLittleEndian [b₀, b₁, b₂, b₃]) = t := by
  obtain ⟨b₀, bs, h, hbs⟩ := List.length_eq_succ_iff.1 (length_littleEndian 4 t.toNat)
  obtain ⟨b₁, b₂, b₃, rfl⟩ := List.length_eq_three.1 hbs
  refine ⟨b₀, b₁, b₂, b₃, h.symm, ?_⟩
  have ht : t.toNat < 1 <<< (8 * 4) := t.toNat_lt
  rw [h, ofLittleEndian_littleEndian, Nat.mod_eq_of_lt ht, UInt32.ofNat_toNat]

theorem ObjectId.bytes_eq (id : ObjectId) :
    ∃ b₀ b₁ b₂, id.bytes = [b₀, b₁, b₂] ∧ ObjectId.ofBytes b₀ b₁ b₂ = id := by
  obtain ⟨b₀, b₁, b₂, h, hid⟩ := bigEndian_three id.code
  exact ⟨b₀, b₁, b₂, h, congrArg ObjectId.mk hid⟩

/-- A tag is read as the format that has it, if there is one. -/
theorem FieldFormat.ofTag_cases (tag : UInt8) :
    (∃ format, ofTag tag = .ok format ∧ format.tag = tag)
    ∨ (tag ≠ 1 ∧ tag ≠ 3 ∧ tag ≠ 4) ∧ ofTag tag = .error (.unknownFormat tag) := by
  unfold ofTag
  split
  · rename_i h1
    exact .inl ⟨_, rfl, UInt8.toNat_inj.1 h1.symm⟩
  · rename_i h3
    exact .inl ⟨_, rfl, UInt8.toNat_inj.1 h3.symm⟩
  · rename_i h4
    exact .inl ⟨_, rfl, UInt8.toNat_inj.1 h4.symm⟩
  · rename_i h1 h3 h4
    refine .inr ⟨⟨?_, ?_, ?_⟩, rfl⟩
    · rintro rfl
      exact h1 rfl
    · rintro rfl
      exact h3 rfl
    · rintro rfl
      exact h4 rfl

/-- A flag is read as the access that has it, if there is one. -/
theorem Access.ofFlag_cases (flag : UInt8) :
    (∃ access, ofFlag flag = .ok access ∧ access.flag = flag)
    ∨ (flag ≠ 0 ∧ flag ≠ 1) ∧ ofFlag flag = .error (.invalid (.accessFlag flag)) := by
  unfold ofFlag
  split
  · rename_i h0
    exact .inl ⟨_, rfl, UInt8.toNat_inj.1 h0.symm⟩
  · rename_i h1
    exact .inl ⟨_, rfl, UInt8.toNat_inj.1 h1.symm⟩
  · rename_i h0 h1
    refine .inr ⟨⟨?_, ?_⟩, rfl⟩
    · rintro rfl
      exact h0 rfl
    · rintro rfl
      exact h1 rfl

theorem FieldFormat.ofTag_tag (format : FieldFormat) : ofTag format.tag = .ok format := by
  cases format with
  | object => rfl
  | profile log => cases log <;> rfl

theorem Access.ofFlag_flag (access : Access) : ofFlag access.flag = .ok access := by
  cases access <;> rfl

namespace DataField

theorem decodeObject_body (id : ObjectId) (access : Access) (payload : Bytes) :
    decodeObject (DataField.object id access payload).body = .ok (.object id access payload) := by
  obtain ⟨b₀, b₁, b₂, hb, hid⟩ := id.bytes_eq
  simp only [body, hb, List.cons_append, List.nil_append, decodeObject, Access.ofFlag_flag, hid]
  rfl

theorem decodeProfile_body (log : ProfileLog) (time : UInt32) (block : Option ProfileBlock) :
    decodeProfile log (DataField.profile log time block).body = .ok (.profile log time block) := by
  obtain ⟨t₀, t₁, t₂, t₃, ht, htime⟩ := littleEndian_four time
  simp only [body, ht, List.cons_append, List.nil_append, decodeProfile, htime]
  cases block with
  | none => rfl
  | some b =>
    have hne : b.bytes.isEmpty = false := by
      cases hb : b.bytes with
      | nil => simpa [hb] using b.length_bytes
      | cons x xs => rfl
    have htake : b.bytes.take 80 = b.bytes := List.take_of_length_le (Nat.le_of_eq b.length_bytes)
    simp [hne, b.length_bytes, htake]

theorem decode_encode (data : DataField) : decode data.encode = .ok data := by
  simp only [encode, decode, FieldFormat.ofTag_tag]
  cases data with
  | object id access payload => exact decodeObject_body id access payload
  | profile log time block => exact decodeProfile_body log time block

end DataField

end MeterLink
