import InputResolution.Reading

/-!
Laws of plans of reads. A chain of two plans runs as its parts do, one after the other. What a plan ensures holds of
its result whatever its requests are answered, so it holds for every source and every state of it.
-/

namespace InputResolution.Reading

variable {α β σ : Type}

@[simp]
theorem value_pure (answer : (r : Request) → r.Answer) (a : α) :
    (pure a : Reading α).value answer = a := rfl

@[simp]
theorem value_request (answer : (r : Request) → r.Answer) (r : Request) :
    (request r).value answer = answer r := rfl

@[simp]
theorem value_bind (answer : (r : Request) → r.Answer) (first : Reading α) (next : α → Reading β) :
    (first >>= next).value answer = (next (first.value answer)).value answer := by
  induction first with
  | done a => rfl
  | ask r rest ih => exact ih (answer r)

theorem bind_done (reading : Reading α) : reading.bind done = reading := by
  induction reading with
  | done a => rfl
  | ask r rest ih => exact congrArg (ask r) (funext ih)

theorem bind_bind {γ : Type} (first : Reading α) (next : α → Reading β) (last : β → Reading γ) :
    (first.bind next).bind last = first.bind fun a => (next a).bind last := by
  induction first with
  | done a => rfl
  | ask r rest ih => exact congrArg (ask r) (funext ih)

instance : LawfulMonad Reading :=
  LawfulMonad.mk' Reading bind_done (fun _ _ => rfl) bind_bind

theorem run_bind (source : Source σ) (first : Reading α) (next : α → Reading β) (state : σ) :
    (first >>= next).run source state =
      match first.run source state with
      | (.ok a, after) => (next a).run source after
      | (.error failure, after) => (.error failure, after) := by
  induction first generalizing state with
  | done a => rfl
  | ask r rest ih =>
      change (ask r fun answer => rest answer >>= next).run source state = _
      simp only [run]
      rcases source r state with ⟨answer | failure, after⟩
      · rfl
      · exact ih _ after

def Answers (source : Source σ) : Prop :=
  ∀ request state, ∃ answer after, source request state = (.ok answer, after)

theorem run_of_answers (source : Source σ) (answers : Answers source) (reading : Reading α) (state : σ) :
    ∃ a after, reading.run source state = (.ok a, after) := by
  induction reading generalizing state with
  | done a => exact ⟨a, state, rfl⟩
  | ask r rest ih =>
      obtain ⟨answer, after, answered⟩ := answers r state
      simp only [run, answered]
      exact ih answer after

def Ensures (property : α → Prop) : Reading α → Prop
  | done a => property a
  | ask _ next => ∀ answer, (next answer).Ensures property

theorem Ensures.mono {property weaker : α → Prop} {reading : Reading α} (ensured : reading.Ensures property)
    (implied : ∀ a, property a → weaker a) : reading.Ensures weaker := by
  induction reading with
  | done a => exact implied a ensured
  | ask r rest ih => exact fun answer => ih answer (ensured answer)

theorem Ensures.bind {property : β → Prop} {first : Reading α} {next : α → Reading β}
    (ensured : first.Ensures fun a => (next a).Ensures property) : (first >>= next).Ensures property := by
  induction first with
  | done a => exact ensured
  | ask r rest ih => exact fun answer => ih answer (ensured answer)

theorem ensures_true (reading : Reading α) : reading.Ensures fun _ => True := by
  induction reading with
  | done a => trivial
  | ask r rest ih => exact ih

theorem Ensures.of_run {property : α → Prop} {reading : Reading α} (ensured : reading.Ensures property)
    {source : Source σ} {state after : σ} {a : α} (ran : reading.run source state = (.ok a, after)) :
    property a := by
  induction reading generalizing state with
  | done b =>
      cases ran
      exact ensured
  | ask r rest ih =>
      simp only [run] at ran
      rcases answered : source r state with ⟨failure | answer, next⟩
      · rw [answered] at ran
        cases ran
      · rw [answered] at ran
        exact ih answer (ensured answer) ran

/-- The result has this property whenever the answers to the requests are admitted ones. -/
def EnsuresUnder (admits : (r : Request) → r.Answer → Prop) (property : α → Prop) : Reading α → Prop
  | done a => property a
  | ask r next => ∀ answer, admits r answer → (next answer).EnsuresUnder admits property

section Admitted

variable {admits : (r : Request) → r.Answer → Prop}

theorem EnsuresUnder.mono {property weaker : α → Prop} {reading : Reading α}
    (ensured : reading.EnsuresUnder admits property) (implied : ∀ a, property a → weaker a) :
    reading.EnsuresUnder admits weaker := by
  induction reading with
  | done a => exact implied a ensured
  | ask r rest ih => exact fun answer admitted => ih answer (ensured answer admitted)

theorem EnsuresUnder.bind {property : β → Prop} {first : Reading α} {next : α → Reading β}
    (ensured : first.EnsuresUnder admits fun a => (next a).EnsuresUnder admits property) :
    (first >>= next).EnsuresUnder admits property := by
  induction first with
  | done a => exact ensured
  | ask r rest ih => exact fun answer admitted => ih answer (ensured answer admitted)

theorem EnsuresUnder.and {property other : α → Prop} {reading : Reading α}
    (first : reading.EnsuresUnder admits property) (second : reading.EnsuresUnder admits other) :
    reading.EnsuresUnder admits fun a => property a ∧ other a := by
  induction reading with
  | done a => exact ⟨first, second⟩
  | ask r rest ih => exact fun answer admitted => ih answer (first answer admitted) (second answer admitted)

theorem EnsuresUnder.value {property : α → Prop} {reading : Reading α}
    (ensured : reading.EnsuresUnder admits property) {answer : (r : Request) → r.Answer}
    (admitted : ∀ r, admits r (answer r)) : property (reading.value answer) := by
  induction reading with
  | done a => exact ensured
  | ask r rest ih => exact ih (answer r) (ensured (answer r) (admitted r))

theorem EnsuresUnder.run {property : α → Prop} {reading : Reading α} (ensured : reading.EnsuresUnder admits property)
    {source : Source σ}
    (answers : ∀ r state, ∃ answer after, source r state = (.ok answer, after) ∧ admits r answer) (state : σ) :
    ∃ a after, reading.run source state = (.ok a, after) ∧ property a := by
  induction reading generalizing state with
  | done a => exact ⟨a, state, rfl, ensured⟩
  | ask r rest ih =>
      obtain ⟨answer, after, answered, admitted⟩ := answers r state
      simp only [Reading.run, answered]
      exact ih answer (ensured answer admitted) after

end Admitted

/-! ## Requests that are made -/

section Requests

variable {answer other : (r : Request) → r.Answer} {kind : Request → Prop}

def AsksOnly (answer : (r : Request) → r.Answer) (kind : Request → Prop) : Reading α → Prop
  | done _ => True
  | ask r next => kind r ∧ (next (answer r)).AsksOnly answer kind

@[simp]
theorem asksOnly_pure (a : α) : (pure a : Reading α).AsksOnly answer kind := trivial

@[simp]
theorem asksOnly_request {r : Request} : (request r).AsksOnly answer kind ↔ kind r :=
  and_iff_left trivial

@[simp]
theorem asksOnly_bind {first : Reading α} {next : α → Reading β} :
    (first >>= next).AsksOnly answer kind ↔
      first.AsksOnly answer kind ∧ (next (first.value answer)).AsksOnly answer kind := by
  induction first with
  | done a => exact (and_iff_right trivial).symm
  | ask r rest ih => exact (and_congr_right fun _ => ih (answer r)).trans and_assoc.symm

theorem AsksOnly.mono {wider : Request → Prop} {reading : Reading α} (asks : reading.AsksOnly answer kind)
    (implied : ∀ r, kind r → wider r) : reading.AsksOnly answer wider := by
  induction reading with
  | done a => trivial
  | ask r next ih => exact ⟨implied r asks.1, ih (answer r) asks.2⟩

/-- Answers that differ only where nothing is asked lead to the same value. -/
theorem AsksOnly.value_eq {reading : Reading α} (asks : reading.AsksOnly answer kind)
    (same : ∀ r, kind r → other r = answer r) : reading.value other = reading.value answer := by
  induction reading with
  | done a => rfl
  | ask r next ih =>
      rw [value, value, same r asks.1]
      exact ih (answer r) asks.2

end Requests

inductive Gives : Reading α → α → Prop where
  | done (a : α) : Gives (done a) a
  | ask {r : Request} {next : r.Answer → Reading α} {a : α} (answer : r.Answer) (rest : Gives (next answer) a) :
      Gives (ask r next) a

theorem Gives.eq_of_done {a b : α} (gives : (Reading.done a).Gives b) : b = a := by
  cases gives
  rfl

theorem ensures_gives (reading : Reading α) : reading.Ensures reading.Gives := by
  induction reading with
  | done a => exact Gives.done a
  | ask r rest ih => exact fun answer => (ih answer).mono fun _ gives => Gives.ask answer gives

theorem Ensures.of_gives {property : α → Prop} {reading : Reading α} (ensured : reading.Ensures property) {a : α}
    (gives : reading.Gives a) : property a := by
  induction gives with
  | done a => exact ensured
  | ask answer rest ih => exact ih (ensured answer)

end InputResolution.Reading
