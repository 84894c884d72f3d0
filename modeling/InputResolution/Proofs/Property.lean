import InputResolution.Proofs.Double.Nearest
import InputResolution.Metadata

/-!
The order of property values. Every value is equal to itself, and turned around the comparison is reversed. Doubles are
compared by their places, whole numbers exactly, and a whole number meets a double as the double nearest to it. So two
different whole numbers can both be equal to one double. Where this does not happen, the comparison is the one of a
partial order and filters select what the order says; where it does happen, neither is the case.
-/

namespace InputResolution

namespace Property

variable {a b c : Property}

/-! ## Two values -/

theorem compare?_self (a : Property) : a.compare? a = some .eq := by
  cases a with
  | int i => exact congrArg some Std.ReflCmp.compare_self
  | double x => exact congrArg some Std.ReflCmp.compare_self
  | text s => exact congrArg some Std.ReflCmp.compare_self

theorem compare?_swap (a b : Property) : b.compare? a = (a.compare? b).map Ordering.swap := by
  cases a <;> cases b <;> first | rfl | exact congrArg some Std.OrientedCmp.eq_swap

def AtMost (a b : Property) : Prop :=
  (a.compare? b).any Ordering.isLE = true

theorem atMost_swap (a b : Property) : b.AtMost a ↔ (a.compare? b).any Ordering.isGE = true := by
  unfold AtMost
  rw [compare?_swap a b]
  cases a.compare? b with
  | none => rfl
  | some order => cases order <;> simp

theorem compare?_eq_some_eq : a.compare? b = some .eq ↔ a.AtMost b ∧ b.AtMost a := by
  rw [atMost_swap a b, AtMost]
  cases a.compare? b with
  | none => simp
  | some order => cases order <;> simp

theorem compare?_eq_some_lt : a.compare? b = some .lt ↔ a.AtMost b ∧ ¬b.AtMost a := by
  rw [atMost_swap a b, AtMost]
  cases a.compare? b with
  | none => simp
  | some order => cases order <;> simp

/-- What two values are to each other is settled by which of them is at most the other. -/
theorem compare?_congr (forth : a.AtMost b ↔ a.AtMost c) (back : b.AtMost a ↔ c.AtMost a) :
    a.compare? b = a.compare? c := by
  rw [AtMost, AtMost] at forth
  rw [atMost_swap a b, atMost_swap a c] at back
  generalize a.compare? b = first, a.compare? c = second at forth back
  revert first second
  decide

theorem atMost_int_int {i j : Int} : (int i).AtMost (int j) ↔ i ≤ j :=
  Std.isLE_compare

theorem atMost_int_double {i : Int} {x : Double} : (int i).AtMost (double x) ↔ Double.placeOfInt i ≤ x.place :=
  Std.isLE_compare

theorem atMost_double_int {x : Double} {i : Int} : (double x).AtMost (int i) ↔ x.place ≤ Double.placeOfInt i :=
  Std.isLE_compare

theorem atMost_double_double {x y : Double} : (double x).AtMost (double y) ↔ x.place ≤ y.place :=
  Std.isLE_compare

/-- No double is nearest to two different whole numbers where all three are among the values. -/
def Apart (values : Set Property) : Prop :=
  ∀ x low high, double x ∈ values → int low ∈ values → int high ∈ values →
    Double.placeOfInt low = x.place → Double.placeOfInt high = x.place → low = high

variable {values : Set Property}

/-- Only on the way from one whole number to another by a double something may be lost. -/
theorem Apart.trans (apart : Apart values) (first : a ∈ values) (second : b ∈ values) (third : c ∈ values)
    (below : a.AtMost b) (above : b.AtMost c) : a.AtMost c := by
  cases a with
  | int i =>
      cases b with
      | int j =>
          rw [atMost_int_int] at below
          cases c with
          | int k => exact atMost_int_int.mpr (below.trans (atMost_int_int.mp above))
          | double z => exact atMost_int_double.mpr ((Double.placeOfInt_mono below).trans (atMost_int_double.mp above))
          | text s => cases above
      | double y =>
          rw [atMost_int_double] at below
          cases c with
          | int k =>
              rw [atMost_double_int] at above
              rw [atMost_int_int]
              by_contra reversed
              have ordered := Double.placeOfInt_mono (Int.le_of_lt (Int.not_le.mp reversed))
              have same := apart y k i second third first (by omega) (by omega)
              omega
          | double z => exact atMost_int_double.mpr (below.trans (atMost_double_double.mp above))
          | text s => cases above
      | text s => cases below
  | double x =>
      cases b with
      | int j =>
          rw [atMost_double_int] at below
          cases c with
          | int k =>
              exact atMost_double_int.mpr (below.trans (Double.placeOfInt_mono (atMost_int_int.mp above)))
          | double z => exact atMost_double_double.mpr (below.trans (atMost_int_double.mp above))
          | text s => cases above
      | double y =>
          rw [atMost_double_double] at below
          cases c with
          | int k => exact atMost_double_int.mpr (below.trans (atMost_double_int.mp above))
          | double z => exact atMost_double_double.mpr (below.trans (atMost_double_double.mp above))
          | text s => cases above
      | text s => cases below
  | text s =>
      cases b with
      | int j => cases below
      | double y => cases below
      | text t =>
          cases c with
          | int k => cases above
          | double z => cases above
          | text u => exact Std.TransCmp.isLE_trans below above

/-! ## Three values -/

/-- From the first value by way of the second to the third, the comparison goes as in a partial order. -/
def Chains (a b c : Property) : Prop :=
  ∀ first second, a.compare? b = some first → b.compare? c = some second → first.isLE → second.isLE →
    ∃ third, a.compare? c = some third ∧ third.isLE ∧ (third = .eq → first = .eq ∧ second = .eq)

theorem atMost_iff : a.AtMost b ↔ ∃ order, a.compare? b = some order ∧ order.isLE := by
  rw [AtMost, Option.any_eq_true]

theorem Chains.trans (chains : a.Chains b c) (below : a.AtMost b) (above : b.AtMost c) : a.AtMost c := by
  obtain ⟨first, compared, atMost⟩ := atMost_iff.mp below
  obtain ⟨second, otherCompared, otherAtMost⟩ := atMost_iff.mp above
  obtain ⟨third, reached, least, _⟩ := chains first second compared otherCompared atMost otherAtMost
  exact atMost_iff.mpr ⟨third, reached, least⟩

theorem Apart.chains (apart : Apart values) (first : a ∈ values) (second : b ∈ values) (third : c ∈ values) :
    a.Chains b c := by
  intro order other compared otherCompared atMost otherAtMost
  have below := atMost_iff.mpr ⟨order, compared, atMost⟩
  have above := atMost_iff.mpr ⟨other, otherCompared, otherAtMost⟩
  obtain ⟨last, reached, least⟩ := atMost_iff.mp (apart.trans first second third below above)
  refine ⟨last, reached, least, ?_⟩
  rintro rfl
  -- from the third value back to the first, and on to the second
  have back := (compare?_eq_some_eq.mp reached).2
  have belowBack := apart.trans second third first above back
  have aboveBack := apart.trans third first second back below
  rw [compare?_eq_some_eq.mpr ⟨below, belowBack⟩] at compared
  rw [compare?_eq_some_eq.mpr ⟨above, aboveBack⟩] at otherCompared
  exact ⟨(Option.some.inj compared).symm, (Option.some.inj otherCompared).symm⟩

theorem apart_of_chains (chains : ∀ a ∈ values, ∀ b ∈ values, ∀ c ∈ values, a.Chains b c) : Apart values := by
  intro x low high double lower upper first second
  have up : (int low).AtMost (int high) :=
    (chains _ lower _ double _ upper).trans (atMost_int_double.mpr first.le) (atMost_double_int.mpr second.ge)
  have down : (int high).AtMost (int low) :=
    (chains _ upper _ double _ lower).trans (atMost_int_double.mpr second.le) (atMost_double_int.mpr first.ge)
  exact le_antisymm (atMost_int_int.mp up) (atMost_int_int.mp down)

theorem apart_of_exact (exact : ∀ i, int i ∈ values → i.natAbs ≤ Double.exactLimit) : Apart values := by
  intro x low high _ lower upper first second
  exact Double.placeOfInt_injective (exact low lower) (exact high upper) (first.trans second.symm)

end Property

/-! ## Filters -/

namespace Filter

variable {values : Set Property}

def selected (values : Set Property) (property : String) (relation : Relation) (value : Property) : Set Artifact :=
  {a | (∃ held ∈ values, a.properties.get? property = some held) ∧ accepts ⟨property, relation, value⟩ a}

variable {property : String} {relation : Relation} {value v w : Property} {a : Artifact}

theorem accepts_eq (f : Filter) (a : Artifact) :
    f.accepts a = ((a.properties.get? f.property).bind fun held => held.compare? f.value).any f.relation.holds := by
  unfold accepts
  cases a.properties.get? f.property with
  | none => rfl
  | some held => cases compared : held.compare? f.value <;> simp [compared]

/-- The artifact is on at most one side of the value or at it, and the other filters put two of these together. -/
@[mk_iff]
structure Splits (property : String) (value : Property) (a : Artifact) : Prop where
  le : accepts ⟨property, .le, value⟩ a = (accepts ⟨property, .lt, value⟩ a || accepts ⟨property, .eq, value⟩ a)
  ge : accepts ⟨property, .ge, value⟩ a = (accepts ⟨property, .gt, value⟩ a || accepts ⟨property, .eq, value⟩ a)
  ne : accepts ⟨property, .ne, value⟩ a = (accepts ⟨property, .lt, value⟩ a || accepts ⟨property, .gt, value⟩ a)
  once : [Relation.lt, .eq, .gt].countP (fun relation => accepts ⟨property, relation, value⟩ a) ≤ 1

theorem splits (property : String) (value : Property) (a : Artifact) : Splits property value a := by
  rw [splits_iff]
  simp only [accepts_eq]
  generalize ((a.properties.get? property).bind fun held => held.compare? value) = order
  revert order
  decide

theorem mem_selected :
    a ∈ selected values property relation value ↔
      ∃ held ∈ values, a.properties.get? property = some held ∧ (held.compare? value).any relation.holds = true := by
  rw [selected, Set.mem_ofPred_eq, accepts_eq]
  constructor
  · intro selected
    obtain ⟨⟨held, member, found⟩, holds⟩ := selected
    rw [found] at holds
    exact ⟨held, member, found, holds⟩
  · intro holding
    obtain ⟨held, member, found, holds⟩ := holding
    rw [found]
    exact ⟨⟨held, member, rfl⟩, holds⟩

theorem mem_selected_le :
    a ∈ selected values property .le v ↔ ∃ held ∈ values, a.properties.get? property = some held ∧ held.AtMost v :=
  mem_selected

theorem mem_selected_ge :
    a ∈ selected values property .ge v ↔ ∃ held ∈ values, a.properties.get? property = some held ∧ v.AtMost held := by
  simp only [Property.atMost_swap _ v]
  exact mem_selected

theorem mem_selected_lt :
    a ∈ selected values property .lt v ↔
      ∃ held ∈ values, a.properties.get? property = some held ∧ held.AtMost v ∧ ¬v.AtMost held := by
  have less : ∀ order : Option Ordering, order = some .lt ↔ order.any Ordering.isLT = true := by decide
  simp only [← Property.compare?_eq_some_lt, less]
  exact mem_selected

theorem mem_selected_gt :
    a ∈ selected values property .gt v ↔
      ∃ held ∈ values, a.properties.get? property = some held ∧ v.AtMost held ∧ ¬held.AtMost v := by
  have greater : ∀ order : Option Ordering, order.map Ordering.swap = some .lt ↔ order.any Ordering.isGT = true := by
    decide
  simp only [← Property.compare?_eq_some_lt, Property.compare?_swap _ v, greater]
  exact mem_selected

structure Consistent (values : Set Property) (property : String) : Prop where
  below : ∀ v ∈ values, ∀ w ∈ values, v.AtMost w →
    selected values property .le v ⊆ selected values property .le w ∧
      selected values property .lt v ⊆ selected values property .lt w
  above : ∀ v ∈ values, ∀ w ∈ values, v.AtMost w →
    selected values property .ge w ⊆ selected values property .ge v ∧
      selected values property .gt w ⊆ selected values property .gt v
  same : ∀ v ∈ values, ∀ w ∈ values, v.compare? w = some .eq →
    ∀ relation, selected values property relation v = selected values property relation w
  disjoint : ∀ v ∈ values, ∀ w ∈ values, v.compare? w = some .lt →
    ∀ a ∈ selected values property .le v, a ∉ selected values property .ge w

theorem consistent_of_chains (chains : ∀ a ∈ values, ∀ b ∈ values, ∀ c ∈ values, a.Chains b c) (property : String) :
    Consistent values property where
  below v first w second ordered := by
    have onward {held : Property} (member : held ∈ values) (below : held.AtMost v) : held.AtMost w :=
      (chains held member v first w second).trans below ordered
    constructor
    · intro a selected
      obtain ⟨held, member, found, below⟩ := mem_selected_le.mp selected
      exact mem_selected_le.mpr ⟨held, member, found, onward member below⟩
    · intro a selected
      obtain ⟨held, member, found, below, strict⟩ := mem_selected_lt.mp selected
      refine mem_selected_lt.mpr ⟨held, member, found, onward member below, fun back => strict ?_⟩
      exact (chains v first w second held member).trans ordered back
  above v first w second ordered := by
    have onward {held : Property} (member : held ∈ values) (above : w.AtMost held) : v.AtMost held :=
      (chains v first w second held member).trans ordered above
    constructor
    · intro a selected
      obtain ⟨held, member, found, above⟩ := mem_selected_ge.mp selected
      exact mem_selected_ge.mpr ⟨held, member, found, onward member above⟩
    · intro a selected
      obtain ⟨held, member, found, above, strict⟩ := mem_selected_gt.mp selected
      refine mem_selected_gt.mpr ⟨held, member, found, onward member above, fun back => strict ?_⟩
      exact (chains held member v first w second).trans back ordered
  same v first w second equal relation := by
    obtain ⟨forth, back⟩ := Property.compare?_eq_some_eq.mp equal
    have compared {held : Property} (member : held ∈ values) : held.compare? v = held.compare? w := by
      apply Property.compare?_congr
      · exact ⟨fun below => (chains held member v first w second).trans below forth,
          fun below => (chains held member w second v first).trans below back⟩
      · exact ⟨fun above => (chains w second v first held member).trans back above,
          fun above => (chains v first w second held member).trans forth above⟩
    ext a
    rw [mem_selected, mem_selected]
    exact exists_congr fun held => and_congr_right fun member => by rw [compared member]
  disjoint v first w second less := by
    obtain ⟨_, strict⟩ := Property.compare?_eq_some_lt.mp less
    intro a lower upper
    obtain ⟨held, member, found, below⟩ := mem_selected_le.mp lower
    obtain ⟨other, _, otherFound, above⟩ := mem_selected_ge.mp upper
    cases Option.some.inj (found.symm.trans otherFound)
    exact strict ((chains w second held member v first).trans above below)

def bearing (property : String) (value : Property) : Artifact :=
  { id := 1, typeName := "Examples", uri := "", state := .live,
    properties := SortedMap.ofList [(property, value)], createTime := Instant.ofSeconds 0 }

theorem bearing_mem_selected (member : value ∈ values) :
    bearing property value ∈ selected values property relation w ↔ (value.compare? w).any relation.holds = true := by
  have found : (bearing property value).properties.get? property = some value := List.lookup_cons_self
  rw [mem_selected]
  constructor
  · intro selected
    obtain ⟨held, _, same, holds⟩ := selected
    cases Option.some.inj (found.symm.trans same)
    exact holds
  · intro holds
    exact ⟨value, member, found, holds⟩

/-- An artifact with a whole number passes the filter on the double nearest to it, and so the one on any other whole
number there. -/
theorem apart_of_consistent (consistent : Consistent values property) : Property.Apart values := by
  intro x low high double lower upper first second
  have near {i : Int} (place : Double.placeOfInt i = x.place) : (Property.int i).compare? (.double x) = some .eq :=
    Property.compare?_eq_some_eq.mpr ⟨Property.atMost_int_double.mpr place.le, Property.atMost_double_int.mpr place.ge⟩
  have same : selected values property .eq (.int low) = selected values property .eq (.int high) :=
    (consistent.same _ lower _ double (near first) .eq).trans (consistent.same _ upper _ double (near second) .eq).symm
  have own : bearing property (.int low) ∈ selected values property .eq (.int low) := by
    rw [bearing_mem_selected lower, Property.compare?_self]
    rfl
  rw [same, bearing_mem_selected lower] at own
  have equal : compare low high = .eq := Ordering.isEq_iff_eq_eq.mp own
  exact Std.LawfulEqCmp.eq_of_compare equal

end Filter

namespace Property

/-- A double that is nearest to two whole numbers, `2 ^ 53`. -/
def crowded : Double :=
  ⟨false, 4845873199050653696, by decide⟩

theorem chains_fail_crowded :
    Double.ofInt? 9007199254740992 = some crowded ∧
      (int 9007199254740993).compare? (double crowded) = some .eq ∧
      (double crowded).compare? (int 9007199254740992) = some .eq ∧
      (int 9007199254740993).compare? (int 9007199254740992) = some .gt ∧
      ¬(int 9007199254740993).Chains (double crowded) (int 9007199254740992) := by
  have first : (int 9007199254740993).compare? (double crowded) = some .eq := by decide +kernel
  have second : (double crowded).compare? (int 9007199254740992) = some .eq := by decide +kernel
  have third : (int 9007199254740993).compare? (int 9007199254740992) = some .gt := by decide +kernel
  refine ⟨by decide +kernel, first, second, third, fun chains => ?_⟩
  obtain ⟨order, reached, least, _⟩ := chains .eq .eq first second rfl rfl
  cases third.symm.trans reached
  cases least

/-- Comparison is reflexive and turns around with its values, and a whole number of 64 bits meets a double as the double
nearest to it. Among any values it is the comparison of a partial order exactly if no double is nearest to two different
whole numbers there, and exactly then filters select what the order says. This is so whenever the whole numbers have at
most 53 bits. -/
theorem partialOrder_iff_apart (values : Set Property) :
    (∀ a : Property, a.compare? a = some .eq) ∧
      (∀ a b : Property, b.compare? a = (a.compare? b).map Ordering.swap) ∧
      (∀ i : Int, i.natAbs ≤ 2 ^ 63 → ∃ nearest, Double.ofInt? i = some nearest ∧
        Double.RoundsTo i.natAbs nearest.rank ∧
        ∀ x, (int i).compare? (double x) = (double nearest).compare? (double x)) ∧
      ((∀ a ∈ values, ∀ b ∈ values, ∀ c ∈ values, a.Chains b c) ↔ Apart values) ∧
      ((∀ property, Filter.Consistent values property) ↔ Apart values) ∧
      (∀ property value a, Filter.Splits property value a) ∧
      ((∀ i, int i ∈ values → i.natAbs ≤ Double.exactLimit) → Apart values) := by
  have chains (apart : Apart values) : ∀ a ∈ values, ∀ b ∈ values, ∀ c ∈ values, a.Chains b c :=
    fun a first b second c third => apart.chains first second third
  refine ⟨compare?_self, compare?_swap, ?_, ⟨apart_of_chains, chains⟩, ⟨?_, ?_⟩, Filter.splits, apart_of_exact⟩
  · intro i signed
    obtain ⟨nearest, converted, place, rounds⟩ := Double.ofInt?_spec signed
    refine ⟨nearest, converted, rounds, fun x => ?_⟩
    rw [compare?, compare?, place]
  · exact fun consistent => Filter.apart_of_consistent (consistent "")
  · exact fun apart => Filter.consistent_of_chains (chains apart)

end Property

end InputResolution
