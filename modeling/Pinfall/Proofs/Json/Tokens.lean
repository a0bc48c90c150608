import Pinfall.Json.Reader

/-!
# Documents as lists of tokens

Between its text and itself a document is a list of tokens: brackets around items that
commas divide.  `tokens` writes a document in this form, and reading the tokens gives the
document back together with all that follows it.  Numbers with a point are left out here,
because a document with such a number need not have a single text; the others are plain.
-/

namespace Pinfall.Json

variable {j : Json} {items : List Json} {fields : List (String × Json)} {bound : Nat}

/-- A document that holds no number with a point. -/
inductive IsPlain : Json → Prop where
  | null : IsPlain .null
  | bool (b : Bool) : IsPlain (.bool b)
  | integer (n : Int) : IsPlain (.integer n)
  | string (s : String) : IsPlain (.string s)
  | array {items : List Json} (h : ∀ item ∈ items, IsPlain item) : IsPlain (.array items)
  | object {fields : List (String × Json)} (h : ∀ field ∈ fields, IsPlain field.2) :
      IsPlain (.object fields)

mutual

/-- The tokens of a document. -/
def tokens : Json → List Token
  | .null => [.null]
  | .bool b => [.bool b]
  | .integer n => [.integer n]
  | .real x => [.real x]
  | .string s => [.string s]
  | .array items =>
    .openArray :: (List.intercalate [.comma] (itemTokens items) ++ [.closeArray])
  | .object fields =>
    .openObject :: (List.intercalate [.comma] (fieldTokens fields) ++ [.closeObject])

/-- The tokens of the items of an array. -/
def itemTokens : List Json → List (List Token)
  | [] => []
  | item :: items => tokens item :: itemTokens items

/-- The tokens of the fields of an object. -/
def fieldTokens : List (String × Json) → List (List Token)
  | [] => []
  | field :: fields => namedTokens field :: fieldTokens fields

/-- The tokens of a field. -/
def namedTokens : String × Json → List Token
  | (key, item) => .string key :: .colon :: tokens item

end

/-- Reading gives a document back, and leaves what follows it. -/
def IsRead (j : Json) : Prop :=
  ∀ bound rest, (tokens j).length ≤ bound → document? bound (tokens j ++ rest) = some (j, rest)

theorem items?_tokens {item : Json} (hread : ∀ other ∈ item :: items, IsRead other)
    (hbound : (List.intercalate [.comma] (itemTokens (item :: items))).length < bound)
    (rest : List Token) :
    items? bound (List.intercalate [.comma] (itemTokens (item :: items)) ++ .closeArray :: rest) =
      some (item :: items, rest) := by
  induction items generalizing item bound with
  | nil =>
    obtain ⟨bound, rfl⟩ := Nat.exists_eq_add_one.mpr (Nat.zero_lt_of_lt hbound)
    rw [itemTokens, itemTokens, List.intercalate_singleton] at hbound ⊢
    have hitem := hread item List.mem_cons_self bound (.closeArray :: rest) (by omega)
    simp [items?, hitem]
  | cons next items ih =>
    obtain ⟨bound, rfl⟩ := Nat.exists_eq_add_one.mpr (Nat.zero_lt_of_lt hbound)
    have hlength : (List.intercalate [.comma] (itemTokens (item :: next :: items))).length =
        (tokens item).length + 1 +
          (List.intercalate [.comma] (itemTokens (next :: items))).length := by
      simp [itemTokens]
      omega
    have hitem := hread item List.mem_cons_self bound
      (.comma :: (List.intercalate [.comma] (itemTokens (next :: items)) ++ .closeArray :: rest))
      (by omega)
    have hothers := ih (fun other hother => hread other (List.mem_cons_of_mem _ hother))
      (show _ < bound by omega)
    have hsplit : itemTokens (item :: next :: items) =
        tokens item :: tokens next :: itemTokens items := rfl
    rw [hsplit, List.intercalate_cons_cons, ← itemTokens, List.append_assoc, List.append_assoc,
      List.singleton_append, items?, hitem]
    simp [hothers]

theorem fields?_tokens {field : String × Json} (hread : ∀ other ∈ field :: fields, IsRead other.2)
    (hbound : (List.intercalate [.comma] (fieldTokens (field :: fields))).length < bound)
    (rest : List Token) :
    fields? bound
        (List.intercalate [.comma] (fieldTokens (field :: fields)) ++ .closeObject :: rest) =
      some (field :: fields, rest) := by
  induction fields generalizing field bound with
  | nil =>
    obtain ⟨key, item⟩ := field
    obtain ⟨bound, rfl⟩ := Nat.exists_eq_add_one.mpr (Nat.zero_lt_of_lt hbound)
    rw [fieldTokens, fieldTokens, List.intercalate_singleton, namedTokens] at hbound ⊢
    have hitem := hread (key, item) List.mem_cons_self bound (.closeObject :: rest)
      (by rw [List.length_cons, List.length_cons] at hbound; dsimp only; omega)
    simp [fields?, hitem]
  | cons next fields ih =>
    obtain ⟨key, item⟩ := field
    obtain ⟨bound, rfl⟩ := Nat.exists_eq_add_one.mpr (Nat.zero_lt_of_lt hbound)
    have hlength : (List.intercalate [.comma] (fieldTokens ((key, item) :: next :: fields))).length =
        (tokens item).length + 3 +
          (List.intercalate [.comma] (fieldTokens (next :: fields))).length := by
      simp [fieldTokens, namedTokens]
      omega
    have hitem := hread (key, item) List.mem_cons_self bound
      (.comma :: (List.intercalate [.comma] (fieldTokens (next :: fields)) ++ .closeObject :: rest))
      (by dsimp only; omega)
    have hothers := ih (fun other hother => hread other (List.mem_cons_of_mem _ hother))
      (show _ < bound by omega)
    have hsplit : fieldTokens ((key, item) :: next :: fields) =
        (.string key :: .colon :: tokens item) :: namedTokens next :: fieldTokens fields := rfl
    rw [hsplit, List.intercalate_cons_cons, ← fieldTokens, List.append_assoc, List.append_assoc,
      List.singleton_append, List.cons_append, List.cons_append, fields?, hitem]
    simp [hothers]

theorem document?_openArray {first : Token} (h : first ≠ .closeArray) (rest : List Token) :
    document? (bound + 1) (.openArray :: first :: rest) =
      (items? bound (first :: rest)).map fun (items, after) => (.array items, after) := by
  cases first with
  | closeArray => contradiction
  | _ => rfl

theorem document?_openObject (key : String) (rest : List Token) :
    document? (bound + 1) (.openObject :: .string key :: rest) =
      (fields? bound (.string key :: rest)).map fun (fields, after) => (.object fields, after) := rfl

theorem isRead_array (hread : ∀ item ∈ items, IsRead item) : IsRead (.array items) := by
  intro bound rest hbound
  rw [tokens, List.length_cons, List.length_append, List.length_singleton] at hbound
  obtain ⟨bound, rfl⟩ := Nat.exists_eq_add_one.mpr (Nat.zero_lt_of_lt hbound)
  cases items with
  | nil => rfl
  | cons item items =>
    have hitems := items?_tokens hread (show _ < bound by omega) rest
    -- The first token of an item is no closing bracket.
    obtain ⟨first, others, hfirst, hne⟩ :
        ∃ first others, List.intercalate [.comma] (itemTokens (item :: items)) = first :: others ∧
          first ≠ .closeArray := by
      rw [itemTokens]
      cases item <;>
        exact ⟨_, _, by rw [tokens, List.intercalate_cons_cons_left], by simp⟩
    rw [hfirst, List.cons_append] at hitems
    rw [tokens, hfirst, List.cons_append, List.append_assoc, List.cons_append,
      document?_openArray hne, List.singleton_append, hitems]
    rfl

theorem isRead_object (hread : ∀ field ∈ fields, IsRead field.2) : IsRead (.object fields) := by
  intro bound rest hbound
  rw [tokens, List.length_cons, List.length_append, List.length_singleton] at hbound
  obtain ⟨bound, rfl⟩ := Nat.exists_eq_add_one.mpr (Nat.zero_lt_of_lt hbound)
  cases fields with
  | nil => rfl
  | cons field fields =>
    have hfields := fields?_tokens hread (show _ < bound by omega) rest
    obtain ⟨others, hfirst⟩ : ∃ others,
        List.intercalate [.comma] (fieldTokens (field :: fields)) = .string field.1 :: others := by
      obtain ⟨key, item⟩ := field
      exact ⟨_, by rw [fieldTokens, namedTokens, List.intercalate_cons_cons_left]⟩
    rw [hfirst, List.cons_append] at hfields
    rw [tokens, hfirst, List.cons_append, List.append_assoc, List.cons_append,
      document?_openObject, List.singleton_append, hfields]
    rfl

/-- Every plain document is given back from its tokens. -/
theorem IsPlain.isRead (h : j.IsPlain) : IsRead j := by
  induction h with
  | array _ ih => exact isRead_array ih
  | object _ ih => exact isRead_object ih
  | _ =>
    intro bound rest hbound
    rw [tokens, List.length_singleton] at hbound
    obtain ⟨bound, rfl⟩ := Nat.exists_eq_add_one.mpr (Nat.zero_lt_of_lt hbound)
    rfl

end Pinfall.Json
