import InputResolution.Proofs.Double.Numeral
import InputResolution.Proofs.Json.Quotation

/-!
What a canonical text tells about its value. The text of a value can be split off the front of any text in which a
comma or a closing bracket follows it. So values with one canonical text are the same up to the order of members; in
particular a whole number never has the text of a double.
-/

namespace InputResolution.Json

/-- An induction that reaches the items of arrays and the values of members. -/
@[elab_as_elim]
theorem induction {motive : Json → Prop} (null : motive null) (bool : ∀ b, motive (bool b))
    (int : ∀ i, motive (int i)) (double : ∀ x, motive (double x)) (string : ∀ s, motive (string s))
    (array : ∀ items, (∀ item ∈ items, motive item) → motive (array items))
    (object : ∀ members, (∀ m ∈ members, motive m.2) → motive (object members)) (v : Json) : motive v :=
  @Json.rec motive (fun items => ∀ item ∈ items, motive item) (fun members => ∀ m ∈ members, motive m.2)
    (fun m => motive m.2) null bool int double string array object
    (fun _ member => nomatch member) (fun _ _ head tail => List.forall_mem_cons.mpr ⟨head, tail⟩)
    (fun _ member => nomatch member) (fun _ _ head tail => List.forall_mem_cons.mpr ⟨head, tail⟩)
    (fun _ _ value => value) v

mutual

def normal : Json → Json
  | array items => array (normalItems items)
  | object members => object (byName (normalMembers members))
  | scalar => scalar

def normalItems : List Json → List Json
  | [] => []
  | item :: rest => normal item :: normalItems rest

def normalMembers : List (String × Json) → List (String × Json)
  | [] => []
  | (name, value) :: rest => (name, normal value) :: normalMembers rest

end

theorem normal_array (items : List Json) : (array items).normal = array (items.map normal) := by
  have each : normalItems items = items.map normal := by
    induction items with
    | nil => rfl
    | cons item rest ih => rw [normalItems, ih, List.map_cons]
  rw [normal, each]

theorem normal_object (members : List (String × Json)) :
    (object members).normal = object ((byName members).map fun m => (m.1, m.2.normal)) := by
  have each : normalMembers members = members.map fun m => (m.1, m.2.normal) := by
    induction members with
    | nil => rfl
    | cons m rest ih => rw [normalMembers, ih, List.map_cons]
  rw [normal, each, byName_map]

/-! ## Texts as characters -/

def chars (v : Json) : List Char :=
  v.canonicalText.toList

def memberChars (m : String × Json) : List Char :=
  (quoted m.1).toList ++ ':' :: m.2.chars

def joined {α : Type} (code : α → List Char) (xs : List α) : List Char :=
  [','].intercalate (xs.map code)

theorem joined_cons {α : Type} (code : α → List Char) (x : α) (xs : List α) :
    joined code (x :: xs) = code x ++ xs.flatMap fun y => ',' :: code y := by
  induction xs generalizing x with
  | nil => simp [joined]
  | cons y ys ih =>
      rw [joined, List.map_cons, List.map_cons, List.intercalate_cons_cons]
      have rest := ih y
      rw [joined, List.map_cons] at rest
      rw [rest, List.flatMap_cons, List.append_assoc, List.singleton_append, List.cons_append]

theorem itemTexts_eq_map (items : List Json) : itemTexts items = items.map canonicalText := by
  induction items with
  | nil => rfl
  | cons item rest ih => rw [itemTexts, ih, List.map_cons]

theorem chars_array (items : List Json) : (array items).chars = '[' :: (joined chars items ++ [']']) := by
  rw [chars, canonicalText, bracketed, itemTexts_eq_map, String.toList_append, String.toList_append,
    String.toList_intercalate, List.map_map]
  rfl

theorem memberTexts_eq_map (members : List (String × Json)) :
    memberTexts members = members.map fun m => (m.1, m.2.canonicalText) := by
  induction members with
  | nil => rfl
  | cons m rest ih => rw [memberTexts, ih, List.map_cons]

theorem chars_object (members : List (String × Json)) :
    (object members).chars = '\x7b' :: (joined memberChars (byName members) ++ ['\x7d']) := by
  have member (m : String × Json) : (quoted m.1 ++ ":" ++ m.2.canonicalText).toList = memberChars m := by
    rw [String.toList_append, String.toList_append, memberChars, chars, List.append_assoc]
    rfl
  rw [chars, canonicalText, bracketed, memberTexts_eq_map, byName_map, String.toList_append, String.toList_append,
    String.toList_intercalate, List.map_map, List.map_map]
  simp only [Function.comp_def, member]
  rfl

theorem canonicalText_eq_of_perm {ms ns : List (String × Json)} (perm : ms.Perm ns)
    (distinct : (ms.map Prod.fst).Nodup) : (object ms).canonicalText = (object ns).canonicalText := by
  rw [canonicalText, canonicalText, memberTexts_eq_map, memberTexts_eq_map, byName_map, byName_map,
    byName_eq_of_perm perm distinct]

/-! ## Splitting a text -/

def Ends (c : Char) : Prop :=
  c = ',' ∨ c = ']' ∨ c = '\x7d'

def Follows (rest : List Char) : Prop :=
  ∀ c ∈ rest.head?, Ends c

theorem follows_cons {c : Char} (ends : Ends c) (rest : List Char) : Follows (c :: rest) := by
  intro first head
  rw [List.head?_cons, Option.mem_some_iff] at head
  exact head ▸ ends

theorem append_inj_of_not_ends {a b s t : List Char} (first : ∀ c ∈ a, ¬Ends c) (second : ∀ c ∈ b, ¬Ends c)
    (afterFirst : Follows s) (afterSecond : Follows t) (same : a ++ s = b ++ t) : a = b ∧ s = t := by
  induction a generalizing b with
  | nil =>
      cases b with
      | nil => exact ⟨rfl, same⟩
      | cons d b =>
          rw [List.nil_append] at same
          subst same
          exact absurd (afterFirst d rfl) (second d List.mem_cons_self)
  | cons c a ih =>
      cases b with
      | nil =>
          rw [List.nil_append] at same
          subst same
          exact absurd (afterSecond c rfl) (first c List.mem_cons_self)
      | cons d b =>
          obtain ⟨head, tail⟩ := List.cons.inj same
          obtain ⟨rest, ending⟩ := ih (fun x member => first x (List.mem_cons_of_mem c member))
            (fun x member => second x (List.mem_cons_of_mem d member)) tail
          exact ⟨by rw [head, rest], ending⟩

section Codes

variable {α β : Type} (code : α → List Char) (meaning : α → β)

/-- The code of `x` can be split off, and tells what `x` means. -/
def SplitsOff (x : α) : Prop :=
  ∀ y s t, Follows s → Follows t → code x ++ s = code y ++ t → meaning x = meaning y ∧ s = t

variable {code meaning}

theorem follows_flatMap {close : Char} (closes : Ends close) (xs : List α) (rest : List Char) :
    Follows ((xs.flatMap fun x => ',' :: code x) ++ close :: rest) := by
  cases xs with
  | nil => exact follows_cons closes rest
  | cons x xs => exact follows_cons (Or.inl rfl) _

theorem flatMap_append_inj {close : Char} (closes : Ends close) (noComma : close ≠ ',') {xs ys : List α}
    {s t : List Char} (splits : ∀ x ∈ xs, SplitsOff code meaning x)
    (same : (xs.flatMap fun x => ',' :: code x) ++ close :: s = (ys.flatMap fun y => ',' :: code y) ++ close :: t) :
    xs.map meaning = ys.map meaning ∧ s = t := by
  induction xs generalizing ys with
  | nil =>
      cases ys with
      | nil => exact ⟨rfl, (List.cons.inj same).2⟩
      | cons y ys => exact absurd (List.cons.inj same).1 noComma
  | cons x xs ih =>
      cases ys with
      | nil => exact absurd (List.cons.inj same).1.symm noComma
      | cons y ys =>
          simp only [List.flatMap_cons, List.cons_append, List.append_assoc, List.cons.injEq, true_and] at same
          obtain ⟨head, tail⟩ := splits x List.mem_cons_self y _ _ (follows_flatMap closes xs s)
            (follows_flatMap closes ys t) same
          obtain ⟨rest, ending⟩ := ih (fun z member => splits z (List.mem_cons_of_mem x member)) tail
          exact ⟨by rw [List.map_cons, List.map_cons, head, rest], ending⟩

/-- Joined codes up to a closing bracket tell what each of them means. -/
theorem joined_append_inj {close : Char} (closes : Ends close) (noComma : close ≠ ',') {xs ys : List α}
    {s t : List Char} (opens : ∀ z, ∃ c rest, code z = c :: rest ∧ ¬Ends c)
    (splits : ∀ x ∈ xs, SplitsOff code meaning x)
    (same : joined code xs ++ close :: s = joined code ys ++ close :: t) : xs.map meaning = ys.map meaning ∧ s = t := by
  cases xs with
  | nil =>
      cases ys with
      | nil => exact ⟨rfl, (List.cons.inj same).2⟩
      | cons y ys =>
          obtain ⟨c, rest, head, inner⟩ := opens y
          rw [joined_cons, head] at same
          exact absurd ((List.cons.inj same).1 ▸ closes) inner
  | cons x xs =>
      cases ys with
      | nil =>
          obtain ⟨c, rest, head, inner⟩ := opens x
          rw [joined_cons, head] at same
          exact absurd ((List.cons.inj same).1 ▸ closes) inner
      | cons y ys =>
          rw [joined_cons, joined_cons, List.append_assoc, List.append_assoc] at same
          obtain ⟨head, tail⟩ := splits x List.mem_cons_self y _ _ (follows_flatMap closes xs s)
            (follows_flatMap closes ys t) same
          obtain ⟨rest, ending⟩ := flatMap_append_inj closes noComma
            (fun z member => splits z (List.mem_cons_of_mem x member)) tail
          exact ⟨by rw [List.map_cons, List.map_cons, head, rest], ending⟩

end Codes

/-! ## Scalars without quotes -/

theorem toList_toString (i : Int) :
    (toString i).toList =
      if i < 0 then '-' :: Nat.toDigits 10 i.natAbs else Nat.toDigits 10 i.natAbs := by
  cases i with
  | ofNat n =>
      rw [if_neg (by simp)]
      exact Nat.toList_repr
  | negSucc n =>
      rw [if_pos (Int.negSucc_lt_zero n)]
      change ("-" ++ Nat.repr (n + 1)).toList = _
      rw [String.toList_append, Nat.toList_repr]
      rfl

theorem digit_or_minus (i : Int) : ∀ c ∈ (toString i).toList, c.isDigit = true ∨ c = '-' := by
  intro c member
  have digits := Double.AllDigits.toDigits i.natAbs
  rw [toList_toString] at member
  split at member
  · rcases List.mem_cons.mp member with minus | later
    · exact Or.inr minus
    · exact Or.inl (digits c later)
  · exact Or.inl (digits c member)

theorem toString_injective {i j : Int} (same : (toString i).toList = (toString j).toList) : i = j := by
  have value (n : Nat) := Nat.ofDigitChars_ten_toDigits (n := n)
  have noMinus (n : Nat) (rest : List Char) : Nat.toDigits 10 n ≠ '-' :: rest := by
    intro minus
    have digit := Double.AllDigits.toDigits n '-' (by rw [minus]; exact List.mem_cons_self)
    exact absurd digit (by decide)
  rw [toList_toString, toList_toString] at same
  split at same <;> split at same
  · have magnitude := congrArg (Nat.ofDigitChars 10 · 0) (List.cons.inj same).2
    simp only [value] at magnitude
    omega
  · exact absurd same.symm (noMinus _ _)
  · exact absurd same (noMinus _ _)
  · have magnitude := congrArg (Nat.ofDigitChars 10 · 0) same
    simp only [value] at magnitude
    omega

def scalar? : Json → Option (List Char)
  | null => some "null".toList
  | bool b => some (if b then "true" else "false").toList
  | int i => some (toString i).toList
  | double x => some x.text.toList
  | _ => none

theorem chars_of_scalar? {v : Json} {text : List Char} (scalar : v.scalar? = some text) : v.chars = text := by
  cases v with
  | null => exact Option.some.inj scalar
  | bool b => exact Option.some.inj scalar
  | int i => exact Option.some.inj scalar
  | double x => exact Option.some.inj scalar
  | string s => cases scalar
  | array items => cases scalar
  | object members => cases scalar

def isNumber : Json → Bool
  | int _ => true
  | double _ => true
  | _ => false

theorem numeralChar_of_isNumber {v : Json} (number : v.isNumber = true) : ∀ c ∈ v.chars, Double.NumeralChar c := by
  intro c member
  cases v with
  | int i =>
      rcases digit_or_minus i c member with digit | minus
      · exact Or.inl digit
      · exact Or.inr (Or.inr (Or.inr (Or.inr minus)))
  | double x => exact Double.numeralChar_text x c member
  | _ => cases number

/-- Numerals are made of other characters than words are. -/
theorem isNumber_iff {v : Json} {text : List Char} (scalar : v.scalar? = some text) :
    v.isNumber = true ↔ ∀ c ∈ v.chars, Double.NumeralChar c := by
  refine ⟨numeralChar_of_isNumber, fun numeral => ?_⟩
  cases v with
  | int i => rfl
  | double x => rfl
  | null => exact absurd (numeral 'u' (by decide)) (by simp [Double.NumeralChar, Char.isDigit])
  | bool b =>
      cases b with
      | true => exact absurd (numeral 'u' (by decide)) (by simp [Double.NumeralChar, Char.isDigit])
      | false => exact absurd (numeral 's' (by decide)) (by simp [Double.NumeralChar, Char.isDigit])
  | _ => cases scalar

theorem int_chars_ne_double (i : Int) (x : Double) : (int i).chars ≠ (double x).chars := by
  intro same
  have unmarked : ∀ c ∈ (double x).chars, c.isDigit = true ∨ c = '-' := by
    rw [← same]
    exact digit_or_minus i
  rcases Double.marked_text x with point | exponent
  · exact absurd (unmarked '.' point) (by decide)
  · exact absurd (unmarked 'e' exponent) (by decide)

theorem scalar_injective {v w : Json} {text : List Char} (first : v.scalar? = some text)
    (second : w.scalar? = some text) : v = w := by
  have same : v.chars = w.chars := (chars_of_scalar? first).trans (chars_of_scalar? second).symm
  have kind : v.isNumber = w.isNumber := by
    rw [Bool.eq_iff_iff, isNumber_iff first, isNumber_iff second, same]
  cases v <;> cases w <;> first | cases first; done | cases second; done | cases kind; done | skip
  case null.null => rfl
  case null.bool b => cases b <;> exact absurd same (by decide)
  case bool.null b => cases b <;> exact absurd same (by decide)
  case bool.bool a b => cases a <;> cases b <;> first | rfl | exact absurd same (by decide)
  case int.int i j => rw [toString_injective same]
  case int.double i x => exact absurd same (int_chars_ne_double i x)
  case double.int x i => exact absurd same.symm (int_chars_ne_double i x)
  case double.double x y => rw [Double.text_injective (String.toList_inj.mp same)]

def Plain (c : Char) : Prop :=
  c.isAlpha = true ∨ Double.NumeralChar c

theorem plain_of_scalar? {v : Json} {text : List Char} (scalar : v.scalar? = some text) : ∀ c ∈ text, Plain c := by
  rw [← chars_of_scalar? scalar]
  intro c member
  cases v with
  | null =>
      have word : null.chars.all Char.isAlpha = true := by rfl
      exact Or.inl (List.all_eq_true.mp word c member)
  | bool b =>
      have word : (bool b).chars.all Char.isAlpha = true := by cases b <;> rfl
      exact Or.inl (List.all_eq_true.mp word c member)
  | int i => exact Or.inr (numeralChar_of_isNumber rfl c member)
  | double x => exact Or.inr (numeralChar_of_isNumber rfl c member)
  | _ => cases scalar

theorem Plain.not_mark {c : Char} (plain : Plain c) : c ∉ ['"', '[', '\x7b', ',', ']', '\x7d'] := by
  intro mark
  simp only [List.mem_cons, List.not_mem_nil, or_false] at mark
  unfold Plain Double.NumeralChar at plain
  rcases mark with rfl | rfl | rfl | rfl | rfl | rfl <;> exact absurd plain (by decide)

/-- The mark at the front of a text; words and numbers have none. -/
def opening : Json → Option Char
  | string _ => some '"'
  | array _ => some '['
  | object _ => some '\x7b'
  | _ => none

theorem scalar?_of_opening {v : Json} (unmarked : v.opening = none) : ∃ text, v.scalar? = some text := by
  cases v <;> first | exact ⟨_, rfl⟩ | cases unmarked

theorem chars_ne_nil (v : Json) : v.chars ≠ [] := by
  intro empty
  cases v with
  | null => exact absurd empty (by decide)
  | bool b => cases b <;> exact absurd empty (by decide)
  | int i =>
      have value := toList_toString i
      rw [show (toString i).toList = [] from empty] at value
      split at value
      · cases value
      · exact Nat.toDigits_ne_nil value.symm
  | double x =>
      have marked := Double.marked_text x
      rw [show x.text.toList = [] from empty] at marked
      rcases marked with impossible | impossible <;> cases impossible
  | string s => exact absurd ((toList_quoted s).symm.trans empty) (List.cons_ne_nil _ _)
  | array items => exact absurd ((chars_array items).symm.trans empty) (List.cons_ne_nil _ _)
  | object members => exact absurd ((chars_object members).symm.trans empty) (List.cons_ne_nil _ _)

/-- A text starts with its mark, or with a character that is no mark. -/
theorem head_chars (v : Json) :
    ∃ c rest, v.chars = c :: rest ∧ (v.opening = some c ∨ (v.opening = none ∧ Plain c)) := by
  cases mark : v.opening with
  | none =>
      obtain ⟨c, rest, head⟩ := List.exists_cons_of_ne_nil (chars_ne_nil v)
      obtain ⟨text, scalar⟩ := scalar?_of_opening mark
      have member : c ∈ text := by
        rw [← chars_of_scalar? scalar, head]
        exact List.mem_cons_self
      exact ⟨c, rest, head, Or.inr ⟨rfl, plain_of_scalar? scalar c member⟩⟩
  | some c =>
      cases v with
      | string s => exact ⟨_, _, toList_quoted s, Or.inl (by cases mark; rfl)⟩
      | array items => exact ⟨_, _, chars_array items, Or.inl (by cases mark; rfl)⟩
      | object members => exact ⟨_, _, chars_object members, Or.inl (by cases mark; rfl)⟩
      | _ => cases mark

theorem mem_marks_of_opening {v : Json} {c : Char} (marked : v.opening = some c) :
    c ∈ ['"', '[', '\x7b'] := by
  cases v <;> cases marked <;> decide

theorem opening_eq {v w : Json} {s t : List Char} (same : v.chars ++ s = w.chars ++ t) : v.opening = w.opening := by
  obtain ⟨c, _, vHead, vOpening⟩ := head_chars v
  obtain ⟨d, _, wHead, wOpening⟩ := head_chars w
  rw [vHead, wHead] at same
  have head : c = d := (List.cons.inj same).1
  subst head
  rcases vOpening with vMark | ⟨vPlain, plain⟩
  · rcases wOpening with wMark | ⟨_, plain⟩
    · rw [vMark, wMark]
    · exact absurd (List.mem_append_left [',', ']', '\x7d'] (mem_marks_of_opening vMark)) plain.not_mark
  · rcases wOpening with wMark | ⟨wPlain, _⟩
    · exact absurd (List.mem_append_left [',', ']', '\x7d'] (mem_marks_of_opening wMark)) plain.not_mark
    · rw [vPlain, wPlain]

theorem opens_chars (v : Json) : ∃ c rest, v.chars = c :: rest ∧ ¬Ends c := by
  obtain ⟨c, rest, head, kind⟩ := head_chars v
  refine ⟨c, rest, head, ?_⟩
  rcases kind with mark | ⟨_, plain⟩
  · have member := mem_marks_of_opening mark
    simp only [List.mem_cons, List.not_mem_nil, or_false] at member
    rcases member with rfl | rfl | rfl <;> simp [Ends]
  · have noMark := plain.not_mark
    simp only [List.mem_cons, List.not_mem_nil, or_false, not_or] at noMark
    simp [Ends, noMark]

theorem opens_memberChars (m : String × Json) : ∃ c rest, memberChars m = c :: rest ∧ ¬Ends c :=
  ⟨'"', _, by rw [memberChars, toList_quoted, List.cons_append], by simp [Ends]⟩

/-! ## Values of texts -/

theorem splitsOff_scalar {v : Json} (unmarked : v.opening = none) : SplitsOff chars normal v := by
  intro w s t afterFirst afterSecond same
  obtain ⟨text, scalar⟩ := scalar?_of_opening unmarked
  obtain ⟨other, otherScalar⟩ := scalar?_of_opening ((opening_eq same).symm.trans unmarked)
  have inner {u : Json} {letters : List Char} (found : u.scalar? = some letters) : ∀ c ∈ letters, ¬Ends c := by
    intro c member
    have noMark := (plain_of_scalar? found c member).not_mark
    simp only [List.mem_cons, List.not_mem_nil, or_false, not_or] at noMark
    simp [Ends, noMark]
  rw [chars_of_scalar? scalar, chars_of_scalar? otherScalar] at same
  obtain ⟨texts, ending⟩ := append_inj_of_not_ends (inner scalar) (inner otherScalar) afterFirst afterSecond same
  rw [texts] at scalar
  exact ⟨congrArg normal (scalar_injective scalar otherScalar), ending⟩

theorem splitsOff_member {m : String × Json} (value : SplitsOff chars normal m.2) :
    SplitsOff memberChars (fun m => (m.1, m.2.normal)) m := by
  intro n s t afterFirst afterSecond same
  rw [memberChars, memberChars, List.append_assoc, List.append_assoc] at same
  obtain ⟨name, rest⟩ := quoted_append_inj same
  obtain ⟨meaning, ending⟩ := value n.2 s t afterFirst afterSecond (List.cons.inj rest).2
  exact ⟨Prod.ext name meaning, ending⟩

theorem splitsOff_chars (v : Json) : SplitsOff chars normal v := by
  induction v using induction with
  | null => exact splitsOff_scalar rfl
  | bool b => exact splitsOff_scalar rfl
  | int i => exact splitsOff_scalar rfl
  | double x => exact splitsOff_scalar rfl
  | string x =>
      intro w s t _ _ same
      have mark := opening_eq same
      cases w with
      | string y =>
          obtain ⟨text, ending⟩ := quoted_append_inj same
          exact ⟨by rw [text], ending⟩
      | _ => cases mark
  | array items ih =>
      intro w s t _ _ same
      have mark := opening_eq same
      cases w with
      | array others =>
          rw [chars_array, chars_array, List.cons_append, List.cons_append, List.append_assoc,
            List.append_assoc] at same
          obtain ⟨meaning, ending⟩ := joined_append_inj (Or.inr (Or.inl rfl)) (by decide) opens_chars ih
            (List.cons.inj same).2
          exact ⟨by rw [normal_array, normal_array, meaning], ending⟩
      | _ => cases mark
  | object members ih =>
      intro w s t _ _ same
      have mark := opening_eq same
      cases w with
      | object others =>
          rw [chars_object, chars_object, List.cons_append, List.cons_append, List.append_assoc,
            List.append_assoc] at same
          have splits : ∀ m ∈ byName members, SplitsOff memberChars (fun m => (m.1, m.2.normal)) m :=
            fun m member => splitsOff_member (ih m ((byName_perm members).mem_iff.mp member))
          obtain ⟨meaning, ending⟩ := joined_append_inj (Or.inr (Or.inr rfl)) (by decide) opens_memberChars splits
            (List.cons.inj same).2
          exact ⟨by rw [normal_object, normal_object, meaning], ending⟩
      | _ => cases mark

/-- Values with one canonical text differ at most in the order of members. -/
theorem normal_eq_of_canonicalText_eq {v w : Json} (same : v.canonicalText = w.canonicalText) :
    v.normal = w.normal := by
  have texts : v.chars ++ [] = w.chars ++ [] := by rw [chars, chars, same]
  exact (splitsOff_chars v w [] [] (fun _ head => nomatch head) (fun _ head => nomatch head) texts).1

end InputResolution.Json
