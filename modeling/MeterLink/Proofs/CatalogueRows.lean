import Mathlib.Data.List.Nodup
import MeterLink.Catalogue
import MeterLink.Proofs.RecordRoundTrip

/-!
# The rows of the catalogue

No two rows share an identifier or a name, so a row is what is found by its own identifier
(`entry?_eq_some_iff`) and by its own name (`named?_eq_some_iff`), and the shape of a named object
is that of its row (`shape_of_named?`). Every object has a shape whose values are read back
(`isRegular_shape`).
-/

namespace MeterLink

theorem catalogue_ascends : (catalogue.map fun e => e.id.toNat).Pairwise (· < ·) := by
  have hchain : (catalogue.map fun e => e.id.toNat).IsChain (· < ·) := by decide +kernel
  exact List.isChain_iff_pairwise.1 hchain

/-- The names by the numbers of their bytes. Each has a letter that is no hexadecimal digit. -/
theorem catalogue_names :
    let names := catalogue.map fun e => e.name.toUTF8.data.toList
    (names.map ofLittleEndian).Nodup
    ∧ ∀ name ∈ names, ∃ b ∈ name, 103 ≤ b.toNat ∧ b.toNat ≤ 119 := by
  decide +kernel

theorem CatalogueEntry.eq_of_id {e e' : CatalogueEntry} (h : e ∈ catalogue) (h' : e' ∈ catalogue)
    (hid : e.id = e'.id) : e = e' :=
  List.inj_on_of_nodup_map (catalogue_ascends.imp Nat.ne_of_lt) h h' (congrArg ObjectId.toNat hid)

theorem CatalogueEntry.eq_of_name {e e' : CatalogueEntry} (h : e ∈ catalogue)
    (h' : e' ∈ catalogue) (hname : e.name = e'.name) : e = e' := by
  have hnodup := catalogue_names.1
  rw [List.map_map] at hnodup
  exact List.inj_on_of_nodup_map hnodup h h'
    (congrArg (fun name : String => ofLittleEndian name.toUTF8.data.toList) hname)

/-- What is found by a key that no two elements share. -/
theorem find?_key_eq_some_iff {α κ : Type} [BEq κ] [LawfulBEq κ] {key : α → κ} {l : List α}
    (hkey : ∀ {a a'}, a ∈ l → a' ∈ l → key a = key a' → a = a') {k : κ} {a : α} :
    l.find? (fun a => key a == k) = some a ↔ a ∈ l ∧ key a = k := by
  constructor
  · intro h
    exact ⟨List.mem_of_find?_eq_some h, by simpa using List.find?_some h⟩
  · rintro ⟨hmem, rfl⟩
    rcases h : l.find? fun a' => key a' == key a with _ | a'
    · have hnone := List.find?_eq_none.1 h a hmem
      simp at hnone
    · have hsame : key a' = key a := by simpa using List.find?_some h
      rw [hkey (List.mem_of_find?_eq_some h) hmem hsame]

namespace ObjectId

variable {id : ObjectId} {name : String} {e : CatalogueEntry}

theorem entry?_eq_some_iff : id.entry? = some e ↔ e ∈ catalogue ∧ e.id = id :=
  find?_key_eq_some_iff CatalogueEntry.eq_of_id

theorem named?_eq_some_iff : named? name = some e ↔ e ∈ catalogue ∧ e.name = name :=
  find?_key_eq_some_iff CatalogueEntry.eq_of_name

theorem shape_of_named? (h : named? name = some e) : e.id.shape = e.shape := by
  rw [shape, entry?_eq_some_iff.2 ⟨(named?_eq_some_iff.1 h).1, rfl⟩]
  rfl

/-- Names that differ are names of objects that differ. -/
theorem id_ne_of_named? {name' : String} {e' : CatalogueEntry} (h : named? name = some e)
    (h' : named? name' = some e') (hname : name ≠ name') : e.id ≠ e'.id := by
  intro hid
  obtain ⟨hmem, rfl⟩ := named?_eq_some_iff.1 h
  obtain ⟨hmem', rfl⟩ := named?_eq_some_iff.1 h'
  exact hname (congrArg CatalogueEntry.name (CatalogueEntry.eq_of_id hmem hmem' hid))

end ObjectId

instance Shape.decidableIsRegular : (shape : Shape) → Decidable shape.IsRegular
  | .bits _ => inferInstanceAs (Decidable (_ ∧ _ ∧ _))
  | .u8 | .u16 | .u32 | .i32 | .ascii _ | .u16s _ | .block _ | .clock | .payment | .empty =>
    .isTrue trivial

namespace ObjectId

/-- The shape of an object is that of a row of the catalogue, or it is left as it came. -/
theorem shape_satisfies (p : Shape → Prop) (hall : ∀ e ∈ catalogue, p e.shape) (hraw : p .raw)
    (id : ObjectId) : p id.shape := by
  rw [shape]
  rcases h : id.entry? with _ | e
  · exact hraw
  · exact hall e (entry?_eq_some_iff.1 h).1

theorem isRegular_shape : ∀ id : ObjectId, id.shape.IsRegular :=
  shape_satisfies Shape.IsRegular (by decide +kernel) trivial

theorem not_overflows_shape : ∀ id : ObjectId, ¬ id.shape.Overflows :=
  shape_satisfies (fun shape => ¬ shape.Overflows) (by decide +kernel) id

end ObjectId

end MeterLink
