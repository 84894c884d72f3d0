import InputResolution.Json
import InputResolution.Proofs.Sorting

/-!
Texts that can be told apart inside a longer text. A character between quotes, and a text between quotes, can be split
off the front of whatever follows them, so different ones never start alike.
-/

namespace InputResolution.Json

def hexValue (c : Char) : Nat :=
  if c.isDigit then c.toNat - 48 else c.toNat - 87

/-- The character at the front of the inside of a quotation, and what follows it. -/
def unescape : List Char → Option (Char × List Char)
  | '\\' :: 'u' :: '0' :: '0' :: high :: low :: rest =>
      some (Char.ofNat (16 * hexValue high + hexValue low), rest)
  | '\\' :: 'b' :: rest => some ('\x08', rest)
  | '\\' :: 'f' :: rest => some ('\x0c', rest)
  | '\\' :: 'n' :: rest => some ('\n', rest)
  | '\\' :: 'r' :: rest => some ('\r', rest)
  | '\\' :: 't' :: rest => some ('\t', rest)
  | '\\' :: c :: rest => some (c, rest)
  | c :: rest => some (c, rest)
  | [] => none

theorem hexValue_digits :
    ∀ n < 32, 16 * hexValue (Nat.digitChar (n / 16)) + hexValue (Nat.digitChar (n % 16)) = n := by decide

theorem unescape_plain {c : Char} (plain : c ≠ '\\') (rest : List Char) : unescape (c :: rest) = some (c, rest) := by
  unfold unescape
  split <;> simp_all

theorem unescape_escapeChar (c : Char) (rest : List Char) : unescape (escapeChar c ++ rest) = some (c, rest) := by
  unfold escapeChar
  split
  · next quote => rw [quote]; rfl
  split
  · next backslash => rw [backslash]; rfl
  split
  · next backspace => rw [backspace]; rfl
  split
  · next feed => rw [feed]; rfl
  split
  · next line => rw [line]; rfl
  split
  · next carriage => rw [carriage]; rfl
  split
  · next tab => rw [tab]; rfl
  split
  · next control =>
    simp only [List.cons_append, List.nil_append, unescape, hexValue_digits c.toNat control, Char.ofNat_toNat]
  · next backslash _ _ _ _ _ _ => exact unescape_plain backslash rest

theorem escapeChar_append_inj {c d : Char} {s t : List Char} (same : escapeChar c ++ s = escapeChar d ++ t) :
    c = d ∧ s = t := by
  have read := congrArg unescape same
  rw [unescape_escapeChar, unescape_escapeChar] at read
  exact Prod.mk.inj (Option.some.inj read)

theorem head_escapeChar (c : Char) : ∃ first rest, escapeChar c = first :: rest ∧ first ≠ '"' := by
  unfold escapeChar
  split
  · exact ⟨_, _, rfl, by decide⟩
  · next noQuote =>
    repeat' split
    all_goals first
      | exact ⟨_, _, rfl, by decide⟩
      | exact ⟨_, _, rfl, noQuote⟩

theorem inside_append_inj {xs ys s t : List Char}
    (same : xs.flatMap escapeChar ++ '"' :: s = ys.flatMap escapeChar ++ '"' :: t) : xs = ys ∧ s = t := by
  induction xs generalizing ys with
  | nil =>
      cases ys with
      | nil => exact ⟨rfl, (List.cons.inj same).2⟩
      | cons y ys =>
          obtain ⟨first, rest, opens, noQuote⟩ := head_escapeChar y
          rw [List.flatMap_cons, opens] at same
          exact absurd (List.cons.inj same).1.symm noQuote
  | cons x xs ih =>
      cases ys with
      | nil =>
          obtain ⟨first, rest, opens, noQuote⟩ := head_escapeChar x
          rw [List.flatMap_cons, opens] at same
          exact absurd (List.cons.inj same).1 noQuote
      | cons y ys =>
          rw [List.flatMap_cons, List.flatMap_cons, List.append_assoc, List.append_assoc] at same
          obtain ⟨head, tail⟩ := escapeChar_append_inj same
          obtain ⟨rest, ending⟩ := ih tail
          exact ⟨by rw [head, rest], ending⟩

theorem toList_quoted (s : String) : (quoted s).toList = '"' :: (s.toList.flatMap escapeChar ++ ['"']) := by
  rw [quoted, String.toList_ofList, List.cons_append]

theorem quoted_append_inj {x y : String} {s t : List Char}
    (same : (quoted x).toList ++ s = (quoted y).toList ++ t) : x = y ∧ s = t := by
  rw [toList_quoted, toList_quoted, List.cons_append, List.cons_append, List.append_assoc, List.append_assoc,
    List.singleton_append, List.singleton_append] at same
  obtain ⟨inside, ending⟩ := inside_append_inj (List.cons.inj same).2
  exact ⟨String.toList_inj.mp inside, ending⟩

/-! ## Sorting by name -/

variable {α β : Type}

/-- The order of members does not depend on their values. -/
theorem byName_map (f : α → β) (members : List (String × α)) :
    byName (members.map fun m => (m.1, f m.2)) = (byName members).map fun m => (m.1, f m.2) :=
  sortBy_map _ _ members

theorem byName_perm (members : List (String × α)) : (byName members).Perm members :=
  sortBy_perm _ members

theorem byName_eq_of_perm {ms ns : List (String × α)} (perm : ms.Perm ns) (distinct : (ms.map Prod.fst).Nodup) :
    byName ms = byName ns :=
  sortBy_eq_of_perm (fun _ first _ second => List.inj_on_of_nodup_map distinct first second) perm

end InputResolution.Json
