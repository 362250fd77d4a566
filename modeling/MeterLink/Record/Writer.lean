import MeterLink.Bytes
import MeterLink.Wire.Fault

/-!
# Writers

A writer puts bytes at the end of a buffer and fails where a value does not fit. What it has put
there by then stays, so that all of its checks have to come before its first byte if a failure is
to leave the buffer alone: writers may follow each other if none of them fails
(`Writer.Appends.andThen`).
-/

namespace MeterLink

/-- A program that puts bytes at the end of a buffer, unless a value does not fit. -/
abbrev Writer (α : Type) : Type := ExceptT Misfit (StateM Bytes) α

namespace Writer

/-- Puts bytes at the end of the buffer. -/
def emit (bs : Bytes) : Writer Unit := modify (· ++ bs)

/-- What the writer comes to on a buffer, and the buffer it leaves. -/
def on {α : Type} (x : Writer α) (out : Bytes) : Except Misfit α × Bytes := StateT.run x.run out

/-- On every buffer the writer puts these bytes at the end, or fails and leaves it as it was. -/
def Appends (x : Writer Unit) (result : Except Misfit Bytes) : Prop :=
  ∀ out, x.on out = match result with
    | .ok bs => (.ok (), out ++ bs)
    | .error misfit => (.error misfit, out)

theorem appends_emit (bs : Bytes) : Appends (emit bs) (.ok bs) := fun _ => rfl

theorem appends_throw (misfit : Misfit) : Appends (throw misfit) (.error misfit) := fun _ => rfl

theorem appends_pure : Appends (pure ()) (.ok []) := by
  intro out
  simp only [List.append_nil]
  rfl

namespace Appends

variable {x y : Writer Unit} {r r' : Except Misfit Bytes}

/-- A check in front of a writer. -/
theorem afterCheck {α : Type} {check : Except Misfit α} {f : α → Writer Unit}
    {g : α → Except Misfit Bytes} (hf : ∀ a, Appends (f a) (g a)) :
    Appends (liftM check >>= f) (check >>= g) := by
  rcases check with misfit | a
  · exact appends_throw misfit
  · exact hf a

/-- A writer behind another one must not fail, for the bytes of the first are there already. -/
theorem andThen {bs cs : Bytes} (hx : Appends x (.ok bs)) (hy : Appends y (.ok cs)) :
    Appends (x >>= fun _ => y) (.ok (bs ++ cs)) := by
  intro out
  have hrun : (x >>= fun _ => y).on out = match x.on out with
      | (.ok _, out) => y.on out
      | (.error misfit, out) => (.error misfit, out) := by
    simp only [on, ExceptT.run_bind, StateT.run_bind]
    rcases StateT.run x.run out with ⟨_ | _, _⟩ <;> rfl
  rw [hrun, hx out]
  simp only [hy (out ++ bs), List.append_assoc]

theorem ite {c : Prop} [Decidable c] (hx : Appends x r) (hy : Appends y r') :
    Appends (if c then x else y) (if c then r else r') := by
  by_cases hc : c
  · rwa [if_pos hc, if_pos hc]
  · rwa [if_neg hc, if_neg hc]

theorem forM {α : Type} {f : α → Writer Unit} {g : α → Bytes}
    (hf : ∀ a, Appends (f a) (.ok (g a))) :
    ∀ l : List α, Appends (l.forM f) (.ok (l.flatMap g))
  | [] => appends_pure
  | a :: l => (hf a).andThen (forM hf l)

end Appends

end Writer

end MeterLink
