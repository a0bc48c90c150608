import Pinfall.CommandLine.Arguments

/-!
# Reading arguments

Behind `--` every argument is a roll, whatever it looks like.  So any list of texts can be
handed over as the rolls of a game, with the switch for JSON or without it.  Arguments that
do not begin with a dash need no `--`, and the switch may stand on either side of them.
-/

namespace Pinfall.CommandLine

variable {reading : Reading} {text : String} {texts rest arguments rolls : List String}
  {token : Token} {others : List Token}

/-! ## Runs of rolls -/

theorem Reading.readOn_positional (hrun : reading.run ≠ .ended) (text : String)
    (rest : List Token) :
    reading.readOn (.positional text :: rest) =
      { reading with rolls := reading.rolls ++ [text], run := .going }.readOn rest := by
  cases hcase : reading.run with
  | ended => contradiction
  | notBegun | going => simp only [readOn, hcase]

/-- Until the run of rolls has ended, arguments that are no switches are rolls, and they do
not end it. -/
theorem Reading.exists_readOn_append (hrun : reading.run ≠ .ended) (texts : List String)
    (rest : List Token) :
    ∃ run, reading.readOn (texts.map .positional ++ rest) =
      { reading with rolls := reading.rolls ++ texts, run := run }.readOn rest := by
  induction texts generalizing reading with
  | nil => exact ⟨reading.run, by simp⟩
  | cons text texts ih =>
    let next : Reading := { reading with rolls := reading.rolls ++ [text], run := .going }
    have hgoing : next.run ≠ .ended := by simp [next]
    obtain ⟨run, hread⟩ := ih hgoing
    refine ⟨run, ?_⟩
    rw [List.map_cons, List.cons_append, readOn_positional hrun, hread, List.append_assoc]
    rfl

theorem parse_eq_ok {json : Bool} {run : Run} (htokens : tokens arguments = .ok others)
    (hread : ({} : Reading).readOn others = .ok { rolls := rolls, json := json, run := run }) :
    parse arguments = .ok ⟨rolls.erase "--", json⟩ := by
  simp [parse, htokens, hread]

theorem tokens_cons (hne : text ≠ "--") (hclassify : classify text = .ok token)
    (hrest : tokens rest = .ok others) : tokens (text :: rest) = .ok (token :: others) := by
  simp [tokens, hne, hclassify, hrest]

theorem tokens_nil : tokens [] = .ok [] := rfl

theorem tokens_json_cons (hrest : tokens rest = .ok others) :
    tokens ("--json" :: rest) = .ok (.switch .json :: others) :=
  tokens_cons (by decide) rfl hrest

/-! ## Behind the separator -/

/-- All arguments behind the separator are rolls. -/
theorem tokens_separator (rolls : List String) :
    tokens ("--" :: rolls) = .ok (("--" :: rolls).map .positional) := by
  rw [tokens, if_pos rfl, List.map_cons]

theorem parse_separator (rolls : List String) : parse ("--" :: rolls) = .ok ⟨rolls, false⟩ := by
  obtain ⟨run, hread⟩ := ({} : Reading).exists_readOn_append (by decide) ("--" :: rolls) []
  rw [List.append_nil] at hread
  rw [parse_eq_ok (tokens_separator rolls) hread]
  simp

theorem parse_json_separator (rolls : List String) :
    parse ("--json" :: "--" :: rolls) = .ok ⟨rolls, true⟩ := by
  obtain ⟨run, hread⟩ :=
    ({ json := true } : Reading).exists_readOn_append (by decide) ("--" :: rolls) []
  rw [List.append_nil] at hread
  rw [parse_eq_ok (tokens_json_cons (tokens_separator rolls)) hread]
  simp

/-! ## Without a dash -/

/-- A text that does not begin with a dash. -/
def IsBare (text : String) : Prop :=
  text.toList.head? ≠ some '-'

instance : DecidablePred IsBare := fun text =>
  inferInstanceAs (Decidable (text.toList.head? ≠ some '-'))

theorem IsBare.ne_separator (h : IsBare text) : text ≠ "--" := by
  rintro rfl
  exact h rfl

theorem IsBare.classify_eq (h : IsBare text) : classify text = .ok (.positional text) := by
  unfold classify
  split
  next htext => exact absurd (congrArg List.head? htext) h
  next => rfl

theorem tokens_append_of_isBare (h : ∀ text ∈ texts, IsBare text)
    (hrest : tokens rest = .ok others) :
    tokens (texts ++ rest) = .ok (texts.map .positional ++ others) := by
  induction texts with
  | nil => exact hrest
  | cons text texts ih =>
    have hfirst := h text List.mem_cons_self
    have hothers := ih fun other hother => h other (List.mem_cons_of_mem _ hother)
    exact tokens_cons hfirst.ne_separator hfirst.classify_eq hothers

theorem erase_separator_of_isBare (h : ∀ text ∈ texts, IsBare text) :
    texts.erase "--" = texts :=
  List.erase_of_not_mem fun hmem => (h _ hmem).ne_separator rfl

theorem parse_of_isBare (h : ∀ text ∈ texts, IsBare text) :
    parse texts = .ok ⟨texts, false⟩ := by
  have htokens := tokens_append_of_isBare h tokens_nil
  obtain ⟨run, hread⟩ := ({} : Reading).exists_readOn_append (by decide) texts []
  rw [List.append_nil] at htokens
  rw [parse_eq_ok htokens hread, List.nil_append, erase_separator_of_isBare h]

theorem parse_json_of_isBare (h : ∀ text ∈ texts, IsBare text) :
    parse ("--json" :: texts) = .ok ⟨texts, true⟩ := by
  have htokens := tokens_append_of_isBare h tokens_nil
  obtain ⟨run, hread⟩ := ({ json := true } : Reading).exists_readOn_append (by decide) texts []
  rw [List.append_nil] at htokens
  rw [parse_eq_ok (tokens_json_cons htokens) hread, List.nil_append,
    erase_separator_of_isBare h]

theorem parse_append_json_of_isBare (h : ∀ text ∈ texts, IsBare text) :
    parse (texts ++ ["--json"]) = .ok ⟨texts, true⟩ := by
  have htokens := tokens_append_of_isBare h (tokens_json_cons tokens_nil)
  obtain ⟨run, hread⟩ :=
    ({} : Reading).exists_readOn_append (by decide) texts [.switch .json]
  rw [parse_eq_ok htokens hread, List.nil_append, erase_separator_of_isBare h]

end Pinfall.CommandLine
