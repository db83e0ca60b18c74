import Mathlib.Order.Basic

/-!
# Programs with requests

A program is the tree of its requests to an environment, each with one
continuation for every reply.  The tree is run to the end against a handler, or
request by request between those of other programs; for the latter, a request is
specified by what it does to the knowledge of the program.
-/

namespace Foundation

/-- A program that puts requests `i : I` and is answered with an `R i`. -/
inductive Program (I : Type) (R : I → Type) (α : Type) where
  | done (a : α)
  | ask (i : I) (k : R i → Program I R α)

namespace Program

variable {I : Type} {R : I → Type} {α β : Type}

/-- Sequencing. -/
def bind (x : Program I R α) (f : α → Program I R β) : Program I R β :=
  match x with
  | .done a => f a
  | .ask i k => .ask i fun r ↦ (k r).bind f

/-! ## Running -/

section Run

variable {σ : Type} (handler : (i : I) → σ → R i × σ)

/-- Run a program to its end, every request answered by the handler. -/
def run : Program I R α → σ → α × σ
  | .done a, s => (a, s)
  | .ask i k, s => run (k (handler i s).1) (handler i s).2

theorem run_bind (x : Program I R α) (f : α → Program I R β) (s : σ) :
    (x.bind f).run handler s = (f (x.run handler s).1).run handler (x.run handler s).2 := by
  induction x generalizing s with
  | done a => rfl
  | ask i k ih => exact ih _ _

end Run

/-! ## Traces -/

/-- A run of a program against some environment: its requests with the replies,
and its result. -/
inductive Trace : Program I R α → List ((i : I) × R i) → α → Prop where
  | done (a : α) : Trace (.done a) [] a
  | ask {i : I} {k : R i → Program I R α} (r : R i) {es : List ((i : I) × R i)} {a : α}
      (h : Trace (k r) es a) : Trace (.ask i k) (⟨i, r⟩ :: es) a

theorem trace_done {a a' : α} {es : List ((i : I) × R i)} :
    Trace (.done a : Program I R α) es a' ↔ es = [] ∧ a' = a := by
  constructor
  · rintro ⟨⟩
    exact ⟨rfl, rfl⟩
  · rintro ⟨rfl, rfl⟩
    exact .done _

theorem trace_ask {i : I} {k : R i → Program I R α} {es : List ((i : I) × R i)} {a : α} :
    Trace (.ask i k) es a ↔ ∃ r es', es = ⟨i, r⟩ :: es' ∧ Trace (k r) es' a := by
  constructor
  · rintro (_ | ⟨r, h⟩)
    exact ⟨r, _, rfl, h⟩
  · rintro ⟨r, es', rfl, h⟩
    exact .ask r h

/-- The replies are those of an environment, which may depend on what happened
before. -/
def Answers (environment : List ((i : I) × R i) → (i : I) → R i) :
    List ((i : I) × R i) → List ((i : I) × R i) → Prop
  | _, [] => True
  | before, e :: es => e.2 = environment before e.1 ∧ Answers environment (before ++ [e]) es

/-- Every environment runs a program to its end. -/
theorem exists_trace (x : Program I R α) (environment : List ((i : I) × R i) → (i : I) → R i)
    (before : List ((i : I) × R i)) : ∃ es a, Trace x es a ∧ Answers environment before es := by
  induction x generalizing before with
  | done a => exact ⟨[], a, .done a, trivial⟩
  | ask i k ih =>
      obtain ⟨es, a, h, hes⟩ := ih (environment before i) (before ++ [⟨i, environment before i⟩])
      exact ⟨_, a, .ask _ h, rfl, hes⟩

/-! ## Knowledge -/

section Holds

variable {κ : Type} {Φ : (i : I) → κ → (R i → κ → Prop) → Prop}

/-- A program that starts with the knowledge `v` and keeps to the specification
of its requests ends with a result and a knowledge in `Q`. -/
def Holds (Φ : (i : I) → κ → (R i → κ → Prop) → Prop) (Q : α → κ → Prop) :
    Program I R α → κ → Prop
  | .done a, v => Q a v
  | .ask i k, v => Φ i v fun r v' ↦ Holds Φ Q (k r) v'

/-- A specification that is monotone in what is to be shown. -/
def Monotone (Φ : (i : I) → κ → (R i → κ → Prop) → Prop) : Prop :=
  ∀ {i v} {P Q : R i → κ → Prop}, (∀ r v', P r v' → Q r v') → Φ i v P → Φ i v Q

theorem Holds.mono (hΦ : Monotone Φ) {P Q : α → κ → Prop} (hPQ : ∀ a v, P a v → Q a v)
    {x : Program I R α} {v : κ} (h : Holds Φ P x v) : Holds Φ Q x v := by
  induction x generalizing v with
  | done a => exact hPQ a v h
  | ask i k ih => exact hΦ (fun r _ hr ↦ ih r hr) h

theorem Holds.bind (hΦ : Monotone Φ) {P : α → κ → Prop} {Q : β → κ → Prop} {x : Program I R α}
    {f : α → Program I R β} {v : κ} (hx : Holds Φ P x v)
    (hf : ∀ a v', P a v' → Holds Φ Q (f a) v') : Holds Φ Q (x.bind f) v := by
  induction x generalizing v with
  | done a => exact hf a v hx
  | ask i k ih => exact hΦ (fun r _ hr ↦ ih r hr) hx

/-- Where the specification of every request and the result allow for less
knowledge, so does the program. -/
theorem Holds.weaken {le : κ → κ → Prop} (hΦ : Monotone Φ)
    (hle : ∀ {i v w} {P : R i → κ → Prop}, le w v → Φ i v P →
      Φ i w fun r w' ↦ ∃ v', le w' v' ∧ P r v')
    {Q : α → κ → Prop} (hQ : ∀ {a v w}, le w v → Q a v → Q a w) {x : Program I R α} {v w : κ}
    (hw : le w v) (h : Holds Φ Q x v) : Holds Φ Q x w := by
  induction x generalizing v w with
  | done a => exact hQ hw h
  | ask i k ih => exact hΦ (fun r _ ⟨_, hv', hr⟩ ↦ ih r hv' hr) (hle hw h)

end Holds

end Program

end Foundation
