import Mathlib.Data.List.Basic

/-!
# Texts read off the front

Two texts agree on a statement if, in front of whatever follows, they can only be
equal when the statement holds, and then what follows is equal too.  Texts that are
written by one template agree on their parts.
-/

namespace Foundation.Template

variable {α : Type*} {t t' u u' : List α} {ts ts' us us' : List (List α)} {P Q S : Prop}

/-- Where both texts can be read, they end at one place and the statement holds. -/
def Agree (t t' : List α) (Q : Prop) : Prop := ∀ r r', t ++ r = t' ++ r' → r = r' ∧ Q

namespace Agree

theorem refl (t : List α) : Agree t t True :=
  fun _ _ h ↦ ⟨List.append_cancel_left h, trivial⟩

theorem mono (h : Agree t t' P) (hPQ : P → Q) : Agree t t' Q :=
  fun r r' heq ↦ (h r r' heq).imp id hPQ

theorem append (h : Agree t t' P) (h' : Agree u u' Q) : Agree (t ++ u) (t' ++ u') (P ∧ Q) := by
  intro r r' heq
  rw [List.append_assoc, List.append_assoc] at heq
  obtain ⟨hrest, hP⟩ := h _ _ heq
  obtain ⟨hr, hQ⟩ := h' _ _ hrest
  exact ⟨hr, hP, hQ⟩

/-- A common text in front. -/
theorem append_left (t : List α) (h : Agree u u' Q) : Agree (t ++ u) (t ++ u') Q :=
  ((refl t).append h).mono And.right

/-- A common text behind. -/
theorem append_right (h : Agree t t' Q) (u : List α) : Agree (t ++ u) (t' ++ u) Q :=
  (h.append (refl u)).mono And.left

theorem of_eq (h : Agree t t' Q) (heq : t = t') : Q :=
  (h [] [] (by rw [heq])).2

end Agree

/-- Lists of texts that agree, each on a part of the statement. -/
inductive AgreeAll : List (List α) → List (List α) → Prop → Prop where
  | nil {Q : Prop} (h : Q) : AgreeAll [] [] Q
  | cons {t t' : List α} {ts ts' : List (List α)} {P Q S : Prop} (h : Agree t t' P)
      (hs : AgreeAll ts ts' Q) (hS : P → Q → S) : AgreeAll (t :: ts) (t' :: ts') S

namespace AgreeAll

theorem mono (h : AgreeAll ts ts' P) (hPQ : P → Q) : AgreeAll ts ts' Q := by
  cases h with
  | nil hP => exact .nil (hPQ hP)
  | cons ht hts hS => exact .cons ht hts fun hp hq ↦ hPQ (hS hp hq)

theorem singleton (h : Agree t t' Q) : AgreeAll [t] [t'] Q := .cons h (.nil trivial) fun hq _ ↦ hq

theorem append (h : AgreeAll ts ts' P) (h' : AgreeAll us us' Q) :
    AgreeAll (ts ++ us) (ts' ++ us') (P ∧ Q) := by
  induction h with
  | nil hP => exact h'.mono fun hQ ↦ ⟨hP, hQ⟩
  | cons ht _ hS ih => exact .cons ht ih fun hp hrest ↦ ⟨hS hp hrest.1, hrest.2⟩

/-- The same written around each text. -/
theorem map (h : AgreeAll ts ts' Q) {f : List α → List α}
    (hf : ∀ {t t' P}, Agree t t' P → Agree (f t) (f t') P) :
    AgreeAll (ts.map f) (ts'.map f) Q := by
  induction h with
  | nil hQ => exact .nil hQ
  | cons ht _ hS ih => exact .cons (hf ht) ih hS

theorem isEmpty_eq (h : AgreeAll ts ts' Q) : ts.isEmpty = ts'.isEmpty := by
  cases h <;> rfl

/-- Joined by a separator, they agree on the whole statement. -/
theorem intercalate (h : AgreeAll ts ts' Q) (separator : List α) :
    Agree (separator.intercalate ts) (separator.intercalate ts') Q := by
  induction h with
  | nil hQ => exact (Agree.refl _).mono fun _ ↦ hQ
  | @cons t t' ts ts' P Q S ht hts hS ih =>
      cases hts with
      | nil hQ =>
          rw [List.intercalate_singleton, List.intercalate_singleton]
          exact ht.mono fun hp ↦ hS hp hQ
      | cons hu hus hS' =>
          rw [List.intercalate_cons_cons, List.intercalate_cons_cons, List.append_assoc,
            List.append_assoc]
          exact (ht.append (ih.append_left separator)).mono fun hpq ↦ hS hpq.1 hpq.2

end AgreeAll

end Foundation.Template
