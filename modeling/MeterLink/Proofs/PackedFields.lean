import Mathlib.Data.List.Zip
import Mathlib.Tactic.SplitIfs
import MeterLink.Record.Codec

/-!
# Packed fields

Values that fit their fields can be read off the word again (`readFields_packOnto`), and the
values that were read make up the word that they came from (`packOnto_readFields`). Both follow a
layout from the top of the word: what was packed before the fields at hand is the word shifted
right by the bits of those fields (`packOnto_shiftRight`).
-/

namespace MeterLink

/-- Every value is below the capacity of its field, and there are as many values as fields. -/
def Fit (layout : List BitField) (values : List UInt32) : Prop :=
  List.Forall₂ (fun f v => v.toNat < 1 <<< f.bits) layout values

theorem fit_iff {layout : List BitField} {values : List UInt32} : Fit layout values
    ↔ layout.length = values.length ∧ ∀ p ∈ layout.zip values, p.2.toNat < 1 <<< p.1.bits := by
  rw [Fit, List.forall₂_iff_zip]
  simp only [Prod.forall]

/-- The word with further values put at its low end. -/
def packOnto (word : Nat) (layout : List BitField) (values : List UInt32) : Nat :=
  (layout.zip values).foldl (fun word p => (word <<< p.1.bits) + p.2.toNat) word

theorem packOnto_zero (layout : List BitField) (values : List UInt32) :
    packOnto 0 layout values = packFields layout values := rfl

theorem packOnto_cons (word : Nat) (f : BitField) (fs : List BitField) (v : UInt32)
    (vs : List UInt32) :
    packOnto word (f :: fs) (v :: vs) = packOnto ((word <<< f.bits) + v.toNat) fs vs := rfl

theorem push_shiftRight {word v b : Nat} (h : v < 1 <<< b) : ((word <<< b) + v) >>> b = word := by
  rw [Nat.one_shiftLeft] at h
  rw [Nat.shiftLeft_eq, Nat.shiftRight_eq_div_pow, Nat.add_comm,
    Nat.add_mul_div_right _ _ (Nat.two_pow_pos b), Nat.div_eq_of_lt h, Nat.zero_add]

theorem push_mod {word v b : Nat} (h : v < 1 <<< b) : ((word <<< b) + v) % 1 <<< b = v := by
  rw [Nat.one_shiftLeft] at h ⊢
  rw [Nat.shiftLeft_eq, Nat.mul_add_mod_self_right, Nat.mod_eq_of_lt h]

/-- The bits above the low ones, with the low ones put back. -/
theorem push_shiftRight_mod (word b : Nat) : ((word >>> b) <<< b) + word % 1 <<< b = word := by
  rw [Nat.one_shiftLeft, Nat.shiftLeft_eq, Nat.shiftRight_eq_div_pow]
  exact Nat.div_add_mod' word _

theorem overflow?_eq_none_iff : ∀ {layout : List BitField} {values : List UInt32},
    layout.length = values.length → (overflow? layout values = none ↔ Fit layout values)
  | [], [], _ => ⟨fun _ => .nil, fun _ => rfl⟩
  | f :: fs, v :: vs, h => by
    have ih : overflow? fs vs = none ↔ Fit fs vs := overflow?_eq_none_iff (Nat.succ.inj h)
    simp only [overflow?, List.zip_cons_cons, List.find?_cons, Fit, List.forall₂_cons] at ih ⊢
    by_cases hv : 1 <<< f.bits ≤ v.toNat
    · simp only [hv, decide_true, reduceCtorEq, false_iff, not_and]
      exact fun hlt => absurd hv (Nat.not_le.2 hlt)
    · simp only [hv, decide_false, ih]
      exact ⟨fun hfit => ⟨Nat.lt_of_not_le hv, hfit⟩, And.right⟩

theorem shiftRight_totalBits_cons (word : Nat) (f : BitField) (fs : List BitField) :
    word >>> totalBits (f :: fs) = (word >>> totalBits fs) >>> f.bits := by
  rw [totalBits, Nat.add_comm, Nat.shiftRight_add]

/-! ## Reading what was packed -/

theorem packOnto_shiftRight : ∀ {layout : List BitField} {values : List UInt32} (word : Nat),
    Fit layout values → packOnto word layout values >>> totalBits layout = word
  | [], [], _, _ => rfl
  | f :: fs, v :: vs, word, h => by
    obtain ⟨hv, hfit⟩ := List.forall₂_cons.1 h
    rw [packOnto_cons, shiftRight_totalBits_cons, packOnto_shiftRight _ hfit, push_shiftRight hv]

theorem packFields_lt {layout : List BitField} {values : List UInt32} (h : Fit layout values) :
    packFields layout values < 1 <<< totalBits layout := by
  have h0 := packOnto_shiftRight 0 h
  rw [packOnto_zero, Nat.shiftRight_eq_div_pow] at h0
  rw [Nat.one_shiftLeft]
  exact Nat.lt_of_div_eq_zero (Nat.two_pow_pos _) h0

theorem readFields_packOnto : ∀ {layout : List BitField} {values : List UInt32} (word : Nat),
    Fit layout values → readFields (packOnto word layout values) (totalBits layout) layout
      = (layout.map BitField.name).zip values
  | [], [], _, _ => rfl
  | f :: fs, v :: vs, word, h => by
    obtain ⟨hv, hfit⟩ := List.forall₂_cons.1 h
    have hrest : totalBits (f :: fs) - f.bits = totalBits fs := Nat.add_sub_cancel_left ..
    simp only [readFields, hrest, packOnto_cons, packOnto_shiftRight _ hfit, push_mod hv,
      readFields_packOnto _ hfit, UInt32.ofNat_toNat, List.map_cons, List.zip_cons_cons]

/-! ## Packing what was read -/

theorem readFields_names (word : Nat) : ∀ (remaining : Nat) (layout : List BitField),
    (readFields word remaining layout).map Prod.fst = layout.map BitField.name
  | _, [] => rfl
  | remaining, f :: fs => by
    simp only [readFields, List.map_cons, readFields_names word _ fs]

theorem toNat_field {word b : Nat} (h : b ≤ 32) :
    (UInt32.ofNat (word % 1 <<< b)).toNat = word % 1 <<< b := by
  rw [UInt32.toNat_ofNat', Nat.one_shiftLeft]
  exact Nat.mod_eq_of_lt (Nat.lt_of_lt_of_le (Nat.mod_lt _ (Nat.two_pow_pos b))
    (Nat.pow_le_pow_right (by decide) h))

theorem fit_readFields (word : Nat) : ∀ (remaining : Nat) {layout : List BitField},
    (∀ f ∈ layout, f.bits ≤ 32) → Fit layout ((readFields word remaining layout).map Prod.snd)
  | _, [], _ => .nil
  | remaining, f :: fs, h => by
    obtain ⟨hf, hfs⟩ := List.forall_mem_cons.1 h
    refine .cons ?_ (fit_readFields word _ hfs)
    rw [toNat_field hf, Nat.one_shiftLeft]
    exact Nat.mod_lt _ (Nat.two_pow_pos _)

theorem packOnto_readFields (word : Nat) : ∀ {layout : List BitField},
    (∀ f ∈ layout, f.bits ≤ 32) → packOnto (word >>> totalBits layout) layout
      ((readFields word (totalBits layout) layout).map Prod.snd) = word
  | [], _ => rfl
  | f :: fs, h => by
    obtain ⟨hf, hfs⟩ := List.forall_mem_cons.1 h
    have hrest : totalBits (f :: fs) - f.bits = totalBits fs := Nat.add_sub_cancel_left ..
    simp only [readFields, hrest, List.map_cons, packOnto_cons, toNat_field hf]
    rw [shiftRight_totalBits_cons, push_shiftRight_mod, packOnto_readFields word hfs]

theorem packFields_readFields {layout : List BitField} (h : ∀ f ∈ layout, f.bits ≤ 32) {word : Nat}
    (hword : word < 1 <<< totalBits layout) :
    packFields layout ((readFields word (totalBits layout) layout).map Prod.snd) = word := by
  rw [Nat.one_shiftLeft] at hword
  have h0 : word >>> totalBits layout = 0 := by
    rw [Nat.shiftRight_eq_div_pow, Nat.div_eq_of_lt hword]
  have hpack := packOnto_readFields word h
  rwa [h0, packOnto_zero] at hpack

end MeterLink
