import Pinfall.Proofs.Json.Lexing

/-!
# Reading printed documents

Printing and reading meet at the tokens.  A layout adds nothing but blanks between them, so
that a plain document is read back from its text in any layout.
-/

namespace Pinfall.Json

variable {layout : Layout} {depth : Nat} {cs rest : List Char} {toks part : List Token} {j : Json}

/-- Between the tokens the layout prints blanks only. -/
structure Layout.IsBlank (layout : Layout) : Prop where
  lineBreak : ∀ depth, ∀ c ∈ (layout.lineBreak depth).toList, isSpace c = true
  colon : ∃ blanks, layout.colon.toList = ':' :: blanks ∧ ∀ c ∈ blanks, isSpace c = true

theorem Layout.isBlank_compact : Layout.compact.IsBlank where
  lineBreak _ c hc := by simp [Layout.compact] at hc
  colon := ⟨[], rfl, by simp⟩

theorem Layout.isBlank_indented : Layout.indented.IsBlank where
  lineBreak depth c hc := by
    simp only [Layout.indented, String.toList_ofList, List.mem_cons, List.mem_replicate] at hc
    rcases hc with rfl | ⟨_, rfl⟩ <;> rfl
  colon := ⟨[' '], rfl, by simp [isSpace]⟩

/-! ## Between tokens -/

/-- The character is a token by itself. -/
structure IsMark (c : Char) (token : Token) : Prop where
  isSpace_eq_false : isSpace c = false
  isAlpha_eq_false : c.isAlpha = false
  isNumberChar_eq_false : isNumberChar c = false
  token?_eq : ∀ cs, token? .standard c cs = some (token, cs)

theorem isMark_openArray : IsMark '[' .openArray := ⟨rfl, rfl, rfl, fun _ => rfl⟩

theorem isMark_closeArray : IsMark ']' .closeArray := ⟨rfl, rfl, rfl, fun _ => rfl⟩

theorem isMark_openObject : IsMark '\x7b' .openObject := ⟨rfl, rfl, rfl, fun _ => rfl⟩

theorem isMark_closeObject : IsMark '\x7d' .closeObject := ⟨rfl, rfl, rfl, fun _ => rfl⟩

theorem isMark_comma : IsMark ',' .comma := ⟨rfl, rfl, rfl, fun _ => rfl⟩

theorem isMark_colon : IsMark ':' .colon := ⟨rfl, rfl, rfl, fun _ => rfl⟩

variable {c : Char} {token : Token} {blanks : List Char}

theorem IsMark.lexes (hc : IsMark c token) (h : Lexes cs toks) : Lexes (c :: cs) (token :: toks) :=
  h.cons hc.isSpace_eq_false (hc.token?_eq cs) (Nat.le_refl _)

theorem IsMark.endsToken (hc : IsMark c token) (cs : List Char) : EndsToken (c :: cs) := by
  rintro d hd
  obtain rfl := Option.some.inj hd
  exact ⟨hc.isAlpha_eq_false, hc.isNumberChar_eq_false⟩

theorem EndsToken.blanks_append (h : EndsToken cs) (hblanks : ∀ c ∈ blanks, isSpace c = true) :
    EndsToken (blanks ++ cs) := by
  cases blanks with
  | nil => exact h
  | cons c blanks =>
    rintro d hd
    obtain rfl := Option.some.inj hd
    rcases eq_of_isSpace (hblanks c List.mem_cons_self) with rfl | rfl | rfl | rfl <;> decide

/-! ## Items between brackets -/

variable {α : Type} {text : α → String} {parts : α → List Token} {as : List α}

/-- Items with commas and blanks between them. -/
theorem prints_intercalate {a : α} {separator : String} (hseparator : separator.toList = ',' :: blanks)
    (hblanks : ∀ c ∈ blanks, isSpace c = true)
    (h : ∀ b ∈ a :: as, Prints (text b).toList (parts b)) :
    Prints (String.intercalate separator ((a :: as).map text)).toList
      (List.intercalate [.comma] ((a :: as).map parts)) := by
  induction as generalizing a with
  | nil => 
    have ha := h a List.mem_cons_self
    simpa using ha
  | cons b as ih =>
    have hothers := ih fun d hd => h d (List.mem_cons_of_mem a hd)
    intro rest toks hends hrest
    have hcomma := isMark_comma.lexes ((hothers rest toks hends hrest).blanks_append hblanks)
    have ha := h a List.mem_cons_self _ _ (isMark_comma.endsToken _) hcomma
    simpa [hseparator] using ha

theorem prints_bracketed {opening closing : String} {o k : Char} {openToken closeToken : Token}
    (hlayout : layout.IsBlank) (hopening : opening.toList = [o]) (hopen : IsMark o openToken)
    (hclosing : closing.toList = [k]) (hclose : IsMark k closeToken)
    (h : ∀ a ∈ as, Prints (text a).toList (parts a)) :
    Prints (bracketed layout depth opening closing (as.map text)).toList
      (openToken :: (List.intercalate [.comma] (as.map parts) ++ [closeToken])) := by
  intro rest toks hends hrest
  have hlast := hclose.lexes hrest
  cases as with
  | nil => 
    have hall := hopen.lexes hlast
    simpa [bracketed, hopening, hclosing] using hall
  | cons a as =>
    have hseparator : ("," ++ layout.lineBreak (depth + 1)).toList =
        ',' :: (layout.lineBreak (depth + 1)).toList := by simp
    have hitems := prints_intercalate hseparator (hlayout.lineBreak (depth + 1)) h _ _
      ((hclose.endsToken rest).blanks_append (hlayout.lineBreak depth))
      (hlast.blanks_append (hlayout.lineBreak depth))
    have hall := hopen.lexes (hitems.blanks_append (hlayout.lineBreak (depth + 1)))
    simpa [bracketed, hopening, hclosing] using hall

/-! ## Documents -/

theorem writeItems_eq_map (layout : Layout) (depth : Nat) (items : List Json) :
    writeItems layout depth items = items.map (write layout depth) := by
  induction items with
  | nil => rfl
  | cons item items ih => rw [writeItems, ih, List.map_cons]

theorem writeFields_eq_map (layout : Layout) (depth : Nat) (fields : List (String × Json)) :
    writeFields layout depth fields = fields.map (writeField layout depth) := by
  induction fields with
  | nil => rfl
  | cons field fields ih => rw [writeFields, ih, List.map_cons]

theorem itemTokens_eq_map (items : List Json) : itemTokens items = items.map tokens := by
  induction items with
  | nil => rfl
  | cons item items ih => rw [itemTokens, ih, List.map_cons]

theorem fieldTokens_eq_map (fields : List (String × Json)) :
    fieldTokens fields = fields.map namedTokens := by
  induction fields with
  | nil => rfl
  | cons field fields ih => rw [fieldTokens, ih, List.map_cons]

theorem prints_writeField (hlayout : layout.IsBlank) {field : String × Json}
    (h : Prints (write layout depth field.2).toList (tokens field.2)) :
    Prints (writeField layout depth field).toList (namedTokens field) := by
  obtain ⟨key, item⟩ := field
  obtain ⟨blanks, hcolon, hblanks⟩ := hlayout.colon
  intro rest toks hends hrest
  have hitem := isMark_colon.lexes ((h rest toks hends hrest).blanks_append hblanks)
  have hkey := prints_quote key _ _ (isMark_colon.endsToken _) hitem
  simpa [writeField, namedTokens, hcolon] using hkey

/-- The text of a plain document is cut into its tokens. -/
theorem IsPlain.prints (hlayout : layout.IsBlank) (h : j.IsPlain) (depth : Nat) :
    Prints (write layout depth j).toList (tokens j) := by
  induction h generalizing depth with
  | null =>
    rw [write, tokens]
    exact prints_null
  | bool b =>
    rw [write, tokens]
    exact prints_bool b
  | integer n =>
    rw [write, tokens]
    exact prints_numeral n
  | string s =>
    rw [write, tokens]
    exact prints_quote s
  | array _ ih =>
    rw [write, tokens, writeItems_eq_map, itemTokens_eq_map]
    apply prints_bracketed hlayout rfl isMark_openArray rfl isMark_closeArray
    intro item hitem
    exact ih item hitem (depth + 1)
  | object _ ih =>
    rw [write, tokens, writeFields_eq_map, fieldTokens_eq_map]
    apply prints_bracketed hlayout rfl isMark_openObject rfl isMark_closeObject
    intro field hfield
    exact prints_writeField hlayout (ih field hfield (depth + 1))

/-- A plain document is read back from its text, with any blanks after it. -/
theorem IsPlain.parse?_write_append (hlayout : layout.IsBlank) (h : j.IsPlain) {blanks : String}
    (hblanks : ∀ c ∈ blanks.toList, isSpace c = true) :
    parse? (write layout depth j ++ blanks) = some j := by
  have hends : EndsToken blanks.toList := by
    rw [← List.append_nil blanks.toList]
    exact EndsToken.blanks_append (by simp [EndsToken]) hblanks
  have hrest : Lexes blanks.toList [] := by
    rw [← List.append_nil blanks.toList]
    exact lexes_nil.blanks_append hblanks
  have htokens := h.prints hlayout depth _ _ hends hrest _ (Nat.le_refl _)
  have hread := h.isRead ((tokens j).length + 1) [] (Nat.le_succ _)
  rw [List.append_nil] at htokens hread
  rw [← String.toList_append] at htokens
  simp only [parse?, parseIn?, tokens?, htokens]
  simp [hread]

theorem IsPlain.parse?_write (hlayout : layout.IsBlank) (h : j.IsPlain) :
    parse? (write layout depth j) = some j := by
  have hread : parse? (write layout depth j ++ "") = some j :=
    h.parse?_write_append hlayout (by simp)
  rwa [String.append_empty] at hread

end Pinfall.Json
