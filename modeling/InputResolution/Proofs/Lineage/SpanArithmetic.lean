import InputResolution.Proofs.Lineage.EvaluatorInputs
import InputResolution.Proofs.Record.Restored.Graph

/-!
The arithmetic of spans. Anchor and cutoff are what remains of the newest span once the parameters are subtracted one
after another. No accepted parameter is negative and the newest span is not before the start, so the anchor fits into 64
bits with a sign. What is subtracted then may lead below the least integer of 64 bits, since no parameter is bounded from
above; it does so for some examples unless the sum of the parameters is at most `2 ^ 63` above the start.
-/

namespace InputResolution

open Record

def SignedSpans (artifacts : List Artifact) : Prop :=
  ∀ a ∈ artifacts, ∀ span ∈ a.span?, isSigned span = true

instance (artifacts : List Artifact) : Decidable (SignedSpans artifacts) :=
  inferInstanceAs (Decidable (∀ a ∈ artifacts, ∀ span ∈ a.span?, isSigned span = true))

theorem toInt_ofInt_eq {i : Int} (above : -27670116110564327424 ≤ i) (below : i ≤ 9223372036854775807) :
    (Int64.ofInt i).toInt = if isSigned i then i else i + 18446744073709551616 := by
  rw [Int64.toInt_ofInt, Int64.size, Int.bmod]
  simp only [isSigned_iff]
  omega

theorem Operator.checkNotNegative_eq_ok {name : String} {value : Int} :
    checkNotNegative name value = .ok () ↔ 0 ≤ value := by
  unfold checkNotNegative
  split <;> simp <;> omega

namespace SpanDriven

variable {params : SpanDriven} {examples : List Artifact} {newest : Int}

theorem newest?_eq_some (found : params.newest? examples = some newest) :
    params.startSpan ≤ newest ∧ ∃ a ∈ examples, a.span? = some newest := by
  obtain ⟨kept, _⟩ := List.max?_eq_some_iff.mp found
  obtain ⟨spans, reached⟩ := List.mem_filter.mp kept
  exact ⟨of_decide_eq_true reached, List.mem_filterMap.mp spans⟩

theorem validate_eq_ok : (Operator.evaluatorInputs params).validate = .ok () ↔
    0 ≤ params.waitSpans ∧ 0 ≤ params.trainingOffset ∧ 0 ≤ params.additionalSpans ∧ 0 ≤ params.startSpan := by
  have next {first second : Except ResolveError Unit} :
      (first >>= fun _ => second) = .ok () ↔ first = .ok () ∧ second = .ok () := by
    rw [Steps.bind_eq_ok]
    exact ⟨fun ⟨_, one, two⟩ => ⟨one, two⟩, fun ⟨one, two⟩ => ⟨(), one, two⟩⟩
  rw [Operator.validate, next, next, next]
  simp only [Operator.checkNotNegative_eq_ok]

theorem bounds (accepted : (Operator.evaluatorInputs params).validate = .ok ()) (storable : params.Storable)
    (signed : isSigned newest = true) (reached : params.startSpan ≤ newest) :
    isSigned (params.anchor newest) = true ∧
      ∀ i ∈ params.differences newest, -27670116110564327424 ≤ i ∧ i ≤ 9223372036854775807 := by
  obtain ⟨wait, offset, additional, start⟩ := validate_eq_ok.mp accepted
  simp only [Storable, isSigned_iff] at storable signed ⊢
  simp only [differences, anchor, cutoff, List.forall_mem_cons, List.not_mem_nil, false_imp_iff, implies_true, and_true]
  omega

theorem fits_of_le (accepted : (Operator.evaluatorInputs params).validate = .ok ()) (signed : isSigned newest = true)
    (reached : params.startSpan ≤ newest)
    (small : params.waitSpans + params.additionalSpans + params.trainingOffset ≤ params.startSpan + 9223372036854775808) :
    params.Fits newest := by
  obtain ⟨wait, offset, additional, start⟩ := validate_eq_ok.mp accepted
  rw [isSigned_iff] at signed
  simp only [Fits, differences, anchor, cutoff, List.forall_mem_cons, List.not_mem_nil, false_imp_iff, implies_true,
    and_true, isSigned_iff]
  omega

def exampleOf (span : Int) : Artifact where
  id := 1
  typeName := "Examples"
  uri := ""
  state := .live
  properties := SortedMap.empty.insert "span" (.int span)
  createTime := Instant.ofSeconds 0

theorem span?_exampleOf (span : Int) : (exampleOf span).span? = some span := rfl

theorem newest?_exampleOf (params : SpanDriven) : params.newest? [exampleOf params.startSpan] = some params.startSpan := by
  simp [newest?, span?_exampleOf]

/-- The anchor of an accepted evaluation fits into 64 bits with a sign. What is subtracted from it fits as far as the
newest span and the parameters allow it. The search works on the words of these numbers, and where a number does not fit
its word holds `2 ^ 64` more. Everything fits for all examples exactly if the parameters add up to at most `2 ^ 63` more
than the start. -/
theorem differences_signed_iff (accepted : (Operator.evaluatorInputs params).validate = .ok ())
    (storable : params.Storable) :
    (∀ examples newest, SignedSpans examples → params.newest? examples = some newest →
      isSigned (params.anchor newest) = true ∧
        (isSigned (params.anchor newest - params.additionalSpans) = true ↔
          params.waitSpans + params.additionalSpans ≤ newest + 9223372036854775808) ∧
        (isSigned (params.cutoff newest) = true ↔
          params.waitSpans + params.additionalSpans + params.trainingOffset ≤ newest + 9223372036854775808) ∧
        [params.windowEnd newest, params.lookback newest, params.trainingEnd newest] =
          (params.differences newest).map wrapped ∧
        ∀ i ∈ params.differences newest,
          (Int64.ofInt i).toInt = if isSigned i then i else i + 18446744073709551616) ∧
    ((∀ examples newest, SignedSpans examples → params.newest? examples = some newest →
        ∀ i ∈ params.differences newest, isSigned i = true) ↔
      params.waitSpans + params.additionalSpans + params.trainingOffset ≤ params.startSpan + 9223372036854775808) := by
  obtain ⟨wait, offset, additional, start⟩ := validate_eq_ok.mp accepted
  have signedOf {examples : List Artifact} {newest : Int} (signed : SignedSpans examples)
      (found : params.newest? examples = some newest) : params.startSpan ≤ newest ∧ isSigned newest = true := by
    obtain ⟨reached, a, member, placed⟩ := newest?_eq_some found
    exact ⟨reached, signed a member newest placed⟩
  constructor
  · intro examples newest signed found
    obtain ⟨reached, fits⟩ := signedOf signed found
    obtain ⟨anchored, between⟩ := bounds accepted storable fits reached
    refine ⟨anchored, ?_, ?_, words_eq params newest, fun i member => toInt_ofInt_eq (between i member).1 (between i member).2⟩
    · rw [isSigned_iff] at fits ⊢
      rw [anchor]
      omega
    · rw [isSigned_iff] at fits ⊢
      rw [cutoff, anchor]
      omega
  · constructor
    · intro never
      have signed : SignedSpans [exampleOf params.startSpan] := by
        intro a member span placed
        rw [List.mem_singleton.mp member, span?_exampleOf, Option.mem_some_iff] at placed
        exact placed ▸ storable.2.2.2
      have last := never _ _ signed (newest?_exampleOf params) (params.cutoff params.startSpan) (by simp [differences])
      rw [isSigned_iff, cutoff, anchor] at last
      omega
    · intro small examples newest signed found
      obtain ⟨reached, fits⟩ := signedOf signed found
      exact fits_of_le accepted fits reached small

def longWait : SpanDriven := ⟨9223372036854775807, 1, 2, 0⟩

theorem differences_signed_iff_longWait :
    (Operator.evaluatorInputs longWait).validate = .ok () ∧ longWait.Storable ∧
      SignedSpans [exampleOf 1, exampleOf 0] ∧ longWait.newest? [exampleOf 1, exampleOf 0] = some 1 ∧
      isSigned (longWait.anchor 1 - 2) = true ∧ isSigned (longWait.cutoff 1) = false ∧
      (Int64.ofInt (longWait.cutoff 1)).toInt = 9223372036854775807 := by
  have accepted : (Operator.evaluatorInputs longWait).validate = .ok () := rfl
  have storable : longWait.Storable := by decide
  have signed : SignedSpans [exampleOf 1, exampleOf 0] := by decide
  have found : longWait.newest? [exampleOf 1, exampleOf 0] = some 1 := by decide
  obtain ⟨_, start, cutoff, _, words⟩ := (differences_signed_iff accepted storable).1 _ 1 signed found
  have outside : isSigned (longWait.cutoff 1) = false := by
    rw [← Bool.not_eq_true, cutoff]
    decide
  have word := words (longWait.cutoff 1) (by simp [differences])
  rw [outside] at word
  exact ⟨accepted, storable, signed, found, start.mpr (by decide), outside, word⟩

def farBehind : SpanDriven := ⟨9223372036854775807, 9223372036854775807, 9223372036854775807, 0⟩

/-- These parameters are accepted, and yet their cutoff does not fit into 64 bits, whatever the newest span is. -/
theorem farBehind_not_signed :
    (Operator.evaluatorInputs farBehind).validate = .ok () ∧ farBehind.Storable ∧
      SignedSpans [exampleOf 0] ∧
      farBehind.newest? [exampleOf 0] = some 0 ∧
      farBehind.cutoff 0 ∈ farBehind.differences 0 ∧
      ∀ newest, isSigned newest = true → isSigned (farBehind.cutoff newest) = false := by
  refine ⟨rfl, by decide, by decide, by decide, by decide, fun newest signed => ?_⟩
  have below : farBehind.cutoff newest = newest - 27670116110564327421 := by
    simp only [cutoff, anchor, farBehind]
    omega
  rw [isSigned_iff] at signed
  rw [← Bool.not_eq_true, isSigned_iff, below]
  omega

end SpanDriven

end InputResolution
