import Mathlib.Data.List.Forall2

/-!
Chains of steps of which each may fail. A chain succeeds exactly if every step of it does, and a walk along a list
succeeds exactly if it does so at every element. Where a step gives a value or none, a chain is followed from one value
to the next.
-/

namespace InputResolution.Steps

variable {ε α β : Type}

theorem bind_eq_ok {first : Except ε α} {next : α → Except ε β} {result : β} :
    first >>= next = .ok result ↔ ∃ a, first = .ok a ∧ next a = .ok result := by
  cases first with
  | error cause => exact ⟨fun same => (nomatch same), fun ⟨_, same, _⟩ => (nomatch same)⟩
  | ok a => exact ⟨fun same => ⟨a, rfl, same⟩, fun ⟨_, same, rest⟩ => Except.ok.inj same ▸ rest⟩

theorem bind_eq_error {first : Except ε α} {next : α → Except ε β} {cause : ε} :
    first >>= next = .error cause ↔ first = .error cause ∨ ∃ a, first = .ok a ∧ next a = .error cause := by
  cases first with
  | error other =>
      constructor
      · exact fun same => Or.inl (congrArg Except.error (Except.error.inj same))
      · rintro (same | ⟨_, same, _⟩)
        · exact congrArg Except.error (Except.error.inj same)
        · cases same
  | ok a =>
      constructor
      · exact fun same => Or.inr ⟨a, rfl, same⟩
      · rintro (same | ⟨_, same, rest⟩)
        · cases same
        · exact Except.ok.inj same ▸ rest

theorem mapM_eq_ok {f : α → Except ε β} {xs : List α} {ys : List β} :
    xs.mapM f = .ok ys ↔ List.Forall₂ (fun x y => f x = .ok y) xs ys := by
  induction xs generalizing ys with
  | nil =>
      rw [List.mapM_nil, List.forall₂_nil_left_iff]
      exact ⟨fun same => (Except.ok.inj same).symm, fun same => congrArg Except.ok same.symm⟩
  | cons x xs ih =>
      rw [List.mapM_cons, List.forall₂_cons_left_iff, bind_eq_ok]
      constructor
      · rintro ⟨y, head, rest⟩
        obtain ⟨others, tail, same⟩ := bind_eq_ok.mp rest
        exact ⟨y, others, head, ih.mp tail, (Except.ok.inj same).symm⟩
      · rintro ⟨y, others, head, tail, same⟩
        exact ⟨y, head, bind_eq_ok.mpr ⟨others, ih.mpr tail, congrArg Except.ok same.symm⟩⟩

theorem forM_eq_ok {f : α → Except ε PUnit} {xs : List α} :
    xs.forM f = .ok () ↔ ∀ x ∈ xs, f x = .ok () := by
  induction xs with
  | nil => exact ⟨fun _ _ member => (nomatch member), fun _ => rfl⟩
  | cons x xs ih =>
      rw [List.forM_eq_forM, List.forM_cons, bind_eq_ok, List.forall_mem_cons]
      constructor
      · rintro ⟨_, head, tail⟩
        exact ⟨head, ih.mp tail⟩
      · rintro ⟨head, tail⟩
        exact ⟨(), head, ih.mpr tail⟩

theorem exists_of_mem {related : α → β → Prop} {xs : List α} {ys : List β} (pairs : List.Forall₂ related xs ys)
    {x : α} (member : x ∈ xs) : ∃ y ∈ ys, related x y := by
  induction pairs with
  | nil => cases member
  | cons head tail ih =>
      rcases List.mem_cons.mp member with rfl | later
      · exact ⟨_, List.mem_cons_self, head⟩
      · obtain ⟨y, there, found⟩ := ih later
        exact ⟨y, List.mem_cons_of_mem _ there, found⟩

theorem rel_getElem? {related : α → β → Prop} {xs : List α} {ys : List β} (pairs : List.Forall₂ related xs ys)
    (index : Nat) : Option.Rel related xs[index]? ys[index]? := by
  induction pairs generalizing index with
  | nil => exact Option.Rel.none
  | cons head tail ih =>
      cases index with
      | zero => exact Option.Rel.some head
      | succ index => exact ih index

/-! ## Chains side by side -/

inductive Agree (related : α → β → Prop) : Except ε α → Except ε β → Prop
  | ok {a : α} {b : β} (results : related a b) : Agree related (.ok a) (.ok b)
  | error (cause : ε) : Agree related (.error cause) (.error cause)

theorem Agree.bind {γ δ : Type} {related : α → β → Prop} {outcome : γ → δ → Prop} {first : Except ε α}
    {second : Except ε β} (agree : Agree related first second) {next : α → Except ε γ} {after : β → Except ε δ}
    (rest : ∀ a b, related a b → Agree outcome (next a) (after b)) :
    Agree outcome (first >>= next) (second >>= after) := by
  cases agree with
  | ok results => exact rest _ _ results
  | error cause => exact Agree.error cause

theorem Agree.map {γ δ : Type} {related : α → β → Prop} {outcome : γ → δ → Prop} {first : Except ε α}
    {second : Except ε β} (agree : Agree related first second) {f : α → γ} {g : β → δ}
    (results : ∀ a b, related a b → outcome (f a) (g b)) : Agree outcome (first.map f) (second.map g) :=
  agree.bind fun a b here => Agree.ok (results a b here)

/-- Steps that end with equal results or with one error are the same. -/
theorem agree_eq_iff {first second : Except ε α} : Agree Eq first second ↔ first = second := by
  constructor
  · intro agree
    cases agree with
    | ok same => exact congrArg Except.ok same
    | error cause => rfl
  · rintro rfl
    cases first with
    | ok a => exact Agree.ok rfl
    | error cause => exact Agree.error cause

theorem Agree.mapM {γ : Type} {related : α → β → Prop} {f : γ → Except ε α} {g : γ → Except ε β} {xs : List γ}
    (each : ∀ x ∈ xs, Agree related (f x) (g x)) : Agree (List.Forall₂ related) (xs.mapM f) (xs.mapM g) := by
  induction xs with
  | nil => exact Agree.ok List.Forall₂.nil
  | cons x xs ih =>
      obtain ⟨head, tail⟩ := List.forall_mem_cons.mp each
      rw [List.mapM_cons, List.mapM_cons]
      refine head.bind fun a b here => (ih tail).bind fun as bs others => ?_
      exact Agree.ok (List.Forall₂.cons here others)

/-! ## Steps that may give nothing -/

theorem bind_eq_some {first : Option α} {next : α → Option β} {a : α} {b : β} (found : first = some a)
    (rest : next a = some b) : first >>= next = some b :=
  Option.bind_eq_some_iff.mpr ⟨a, found, rest⟩

theorem mapM_eq_some {f : α → Option β} {g : α → β} {xs : List α} (each : ∀ x ∈ xs, f x = some (g x)) :
    xs.mapM f = some (xs.map g) := by
  induction xs with
  | nil => rfl
  | cons x rest ih =>
      obtain ⟨first, later⟩ := List.forall_mem_cons.mp each
      rw [List.mapM_cons, first, ih later]
      rfl

end InputResolution.Steps
