import Pinfall.Proofs.Number.Numeral
import Pinfall.Proofs.Text.Pieces
import Pinfall.Text.Quoted

/-!
# Texts on one line

A text in which no control is left has no line feed in it.  Numerals are such texts, and so are
quoted literals, whatever text is quoted.  Lines that are put one below the other are told
apart again if no line feed is inside of them, and each such line feed makes one line more.
-/

namespace Pinfall

namespace Text

variable {s t : String} {lines : List String} {c quote : Char}

/-- Every character is a space or lies above it. -/
def HasNoControl (s : String) : Prop :=
  ∀ c ∈ s.toList, 0x20 ≤ c.toNat

instance (s : String) : Decidable (HasNoControl s) :=
  decidable_of_iff (s.toList.all (0x20 ≤ ·.toNat) = true) (by simp [HasNoControl])

theorem HasNoControl.lineFeed_notMem (h : HasNoControl s) : '\n' ∉ s.toList := by
  intro hmem
  exact absurd (h '\n' hmem) (by decide)

theorem HasNoControl.append (hs : HasNoControl s) (ht : HasNoControl t) :
    HasNoControl (s ++ t) := by
  intro c hc
  rw [String.toList_append, List.mem_append] at hc
  exact hc.elim (hs c) (ht c)

theorem hasNoControl_join {texts : List String} (h : ∀ s ∈ texts, HasNoControl s) :
    HasNoControl (String.join texts) := by
  intro c hc
  rw [String.toList_join, List.mem_flatMap] at hc
  obtain ⟨s, hs, hc⟩ := hc
  exact h s hs c hc

theorem hasNoControl_intercalate {separator : String} {texts : List String}
    (hseparator : HasNoControl separator) (h : ∀ s ∈ texts, HasNoControl s) :
    HasNoControl (separator.intercalate texts) := by
  intro c hc
  rw [String.toList_intercalate] at hc
  rcases mem_or_exists_mem_of_mem_intercalate hc with hc | ⟨piece, hpiece, hc⟩
  · exact hseparator c hc
  · obtain ⟨s, hs, rfl⟩ := List.mem_map.mp hpiece
    exact h s hs c hc

theorem toNat_of_isDigit (h : c.isDigit = true) : 0x30 ≤ c.toNat := by
  simp only [Char.isDigit, ge_iff_le, Bool.and_eq_true, decide_eq_true_eq,
    UInt32.le_iff_toNat_le, Char.reduceVal, UInt32.reduceToNat] at h
  exact h.1

theorem hasNoControl_numeral (n : Int) : HasNoControl (Number.numeral n) := by
  intro c hc
  rcases Number.eq_or_isDigit_of_mem_numeral hc with rfl | hdigit
  · decide
  · exact Nat.le_trans (by decide) (toNat_of_isDigit hdigit)

/-! ## Quoted literals -/

theorem hasNoControl_hexNumeral (width n : Nat) : HasNoControl (Number.hexNumeral width n) := by
  have hdigit : ∀ digit < 16, 0x20 ≤ (Nat.digitChar digit).toNat := by decide
  have hdigits : ∀ n, ∀ c ∈ Nat.toDigits 16 n, 0x20 ≤ c.toNat := by
    intro n
    induction n using Nat.strongRecOn with
    | ind n ih =>
      by_cases hn : n < 16
      · rw [Nat.toDigits_of_lt_base hn]
        simpa using hdigit n hn
      · rw [Nat.toDigits_of_base_le (by decide) (Nat.not_lt.mp hn)]
        intro c hc
        rcases List.mem_append.mp hc with hrest | hlast
        · exact ih (n / 16) (by omega) c hrest
        · rw [List.mem_singleton.mp hlast]
          exact hdigit (n % 16) (Nat.mod_lt n (by decide))
  intro c hc
  rw [Number.hexNumeral, String.toList_ofList] at hc
  rcases List.mem_append.mp hc with hzero | hc
  · rw [List.eq_of_mem_replicate hzero]
    decide
  · exact hdigits n c hc

theorem hasNoControl_codeEscape (n : Nat) : HasNoControl (codeEscape n) := by
  have hsmall : HasNoControl "\\x" := by decide
  have hmiddle : HasNoControl "\\u" := by decide
  have hlarge : HasNoControl "\\U" := by decide
  unfold codeEscape
  split
  · exact hsmall.append (hasNoControl_hexNumeral 2 n)
  · split
    · exact hmiddle.append (hasNoControl_hexNumeral 4 n)
    · exact hlarge.append (hasNoControl_hexNumeral 8 n)

theorem toNat_of_isPrintable (h : isPrintable c = true) : 0x20 ≤ c.toNat := by
  unfold isPrintable at h
  split at h
  next => simpa using h
  next hlarge => omega

/-- A character that cannot be printed is spelled out. -/
theorem hasNoControl_escapeChar (hquote : 0x20 ≤ quote.toNat) (c : Char) :
    HasNoControl (escapeChar quote c) := by
  unfold escapeChar
  split
  next h =>
    intro d hd
    rw [String.toList_ofList, List.mem_cons, List.mem_singleton] at hd
    rcases hd with rfl | rfl
    · decide
    · rcases h with rfl | rfl
      · exact hquote
      · decide
  iterate 3
    split
    next => decide
  split
  next h =>
    intro d hd
    rw [Char.toString, String.toList_singleton, List.mem_singleton] at hd
    rw [hd]
    exact toNat_of_isPrintable h
  next => exact hasNoControl_codeEscape c.toNat

theorem quoteFor_cases (cs : List Char) : quoteFor cs = '\x22' ∨ quoteFor cs = '\x27' := by
  unfold quoteFor
  split
  · exact Or.inl rfl
  · exact Or.inr rfl

/-- Whatever text is quoted, it cannot end the line. -/
theorem hasNoControl_quoted (s : String) : HasNoControl (quoted s) := by
  have hbody : ∀ quote : Char, 0x20 ≤ quote.toNat →
      HasNoControl (String.join (s.toList.map (escapeChar quote))) := by
    intro quote hquote
    apply hasNoControl_join
    intro text htext
    obtain ⟨c, _, rfl⟩ := List.mem_map.mp htext
    exact hasNoControl_escapeChar hquote c
  unfold quoted
  rcases quoteFor_cases s.toList with hquote | hquote
  · have hmark : HasNoControl ('\x22'.toString) := by decide
    rw [hquote]
    exact (hmark.append (hbody _ (by decide))).append hmark
  · have hmark : HasNoControl ('\x27'.toString) := by decide
    rw [hquote]
    exact (hmark.append (hbody _ (by decide))).append hmark

/-! ## Lines -/

/-- The number of line feeds in a text. -/
def lineFeeds (s : String) : Nat :=
  s.toList.count '\n'

/-- Lines one below the other, each with its line feed. -/
def ofLines (lines : List String) : String :=
  String.join (lines.map (· ++ "\n"))

/-- The lines of a text that ends with a line feed. -/
def linesOf (s : String) : List String :=
  (s.toList.splitOn '\n').dropLast.map String.ofList

theorem lineFeeds_append (s t : String) : lineFeeds (s ++ t) = lineFeeds s + lineFeeds t := by
  rw [lineFeeds, String.toList_append, List.count_append]
  rfl

theorem lineFeeds_eq_zero_iff : lineFeeds s = 0 ↔ '\n' ∉ s.toList :=
  List.count_eq_zero

theorem HasNoControl.lineFeeds_eq_zero (h : HasNoControl s) : lineFeeds s = 0 :=
  lineFeeds_eq_zero_iff.mpr h.lineFeed_notMem

theorem ofLines_cons (line : String) (lines : List String) :
    ofLines (line :: lines) = line ++ "\n" ++ ofLines lines := by
  rw [ofLines, List.map_cons, String.join_cons]
  rfl

theorem ofLines_append (lines others : List String) :
    ofLines (lines ++ others) = ofLines lines ++ ofLines others := by
  simp [ofLines, String.join_append]

/-- Each line has its own line feed, and others may be inside of the lines. -/
theorem lineFeeds_ofLines (lines : List String) :
    lineFeeds (ofLines lines) = lines.length + lineFeeds (String.join lines) := by
  induction lines with
  | nil => rfl
  | cons line lines ih =>
    have hfeed : lineFeeds "\n" = 1 := by decide
    rw [ofLines_cons, lineFeeds_append, lineFeeds_append, hfeed, ih, String.join_cons,
      lineFeeds_append, List.length_cons]
    omega

theorem toList_ofLines (lines : List String) :
    (ofLines lines).toList = ['\n'].intercalate (lines.map String.toList ++ [[]]) := by
  induction lines with
  | nil => rfl
  | cons line lines ih =>
    rw [ofLines_cons, String.toList_append, String.toList_append, ih, List.map_cons,
      List.cons_append]
    cases lines with
    | nil => simp
    | cons next lines => simp [List.intercalate_cons_cons]

/-- No text can pass for lines of its own as long as it holds no line feed. -/
theorem linesOf_ofLines (h : ∀ line ∈ lines, '\n' ∉ line.toList) :
    linesOf (ofLines lines) = lines := by
  have hpieces : ∀ piece ∈ lines.map String.toList ++ [[]], '\n' ∉ piece := by
    intro piece hpiece
    rcases List.mem_append.mp hpiece with hmem | hlast
    · obtain ⟨line, hline, rfl⟩ := List.mem_map.mp hmem
      exact h line hline
    · rw [List.mem_singleton.mp hlast]
      exact List.not_mem_nil
  rw [linesOf, toList_ofLines, List.splitOn_intercalate '\n' hpieces (by simp),
    List.dropLast_concat, List.map_map]
  simp [Function.comp_def]

end Text

end Pinfall
