import CodeChart.Graph.Dot
import CodeChart.Proofs.Graph.Growth

/-!
# Labels as string tokens

In a DOT text a label stands between double quotes.  A reader takes a backslash together with the
character behind it, and the token ends at the first double quote that is not taken so.

* `Dot.readToken`        what a token stands for, and what is left behind it; what a backslash means
                         in front of other characters than quotes and backslashes is left open;
* `Dot.value_quoted`     what is between double quotes already is written as it is;
* `flatMap_escapeLabel`  a label is escaped by four replacements, one after the other;
* `Dot.readRest_escapeLabel`, `Dot.readToken_quoteLabel`   none of them undoes or doubles another;
* `nodeLabel_isToken`    the label of a node is read back from the label that is written, but for
                         its line ends.
-/

namespace CodeChart

/-! ## reading a token -/

namespace Dot

/-- what a backslash and the character behind it stand for -/
def unescape (pair : Char → Text) (c : Char) : Text := if c = '"' ∨ c = '\\' then [c] else pair c

/-- behind the opening quote: the text up to the closing one, and the rest -/
def readRest (pair : Char → Text) : Text → Option (Text × Text)
  | [] => none
  | '"' :: rest => some ([], rest)
  | ['\\'] => none
  | '\\' :: c :: rest => (readRest pair rest).map fun r => (unescape pair c ++ r.1, r.2)
  | c :: rest => (readRest pair rest).map fun r => (c :: r.1, r.2)

def readToken (pair : Char → Text) : Text → Option (Text × Text)
  | '"' :: rest => readRest pair rest
  | _ => none

variable (pair : Char → Text)

theorem readRest_pair (c : Char) (rest : Text) : readRest pair ('\\' :: c :: rest)
    = (readRest pair rest).map fun r => (unescape pair c ++ r.1, r.2) := rfl

theorem readRest_ordinary {c : Char} (hquote : c ≠ '"') (hslash : c ≠ '\\') (rest : Text) :
    readRest pair (c :: rest) = (readRest pair rest).map fun r => (c :: r.1, r.2) := by
  rw [readRest.eq_5]
  · exact hquote
  · exact fun h _ => hslash h
  · exact fun _ _ h _ => hslash h

/-! ## what is written -/

theorem value_quoted (t : Text) : value ('"' :: (t ++ ['"'])) = '"' :: (t ++ ['"']) := by
  have hword : ∀ w ∈ keywords, w.head? ≠ some '"' := by decide
  have hkeyword : keywords.contains (lowerCase ('"' :: (t ++ ['"']))) = false := by
    rw [List.contains_eq_mem, decide_eq_false_iff_not]
    exact fun h => hword _ h rfl
  have hlast : ('"' :: (t ++ ['"'])).getLast? = some '"' := by
    rw [← List.cons_append, List.getLast?_concat]
  have hend : withoutLineEnd ('"' :: (t ++ ['"'])) = '"' :: (t ++ ['"']) := by
    rw [withoutLineEnd, hlast, if_neg (by decide)]
  have hdelimited : isDelimited ('"' :: (t ++ ['"'])) = true := by
    rw [isDelimited, hlast]
    simp
  have hdigit : isDigit '"' = false := by decide
  have hletter : isAlphanumeric '"' = false := by decide
  rw [value, hkeyword, hend, hdelimited, List.all_cons, List.all_cons, hdigit, hletter]
  rfl

end Dot

/-! ## four replacements -/

/-- every `a` becomes `w` -/
def replaceWith (a : Char) (w t : Text) : Text := t.flatMap fun c => if c = a then w else [c]

/-- `t` with blanks for its line ends -/
def onOneLine (t : Text) : Text := replaceChar '\r' ' ' (replaceChar '\n' ' ' t)

theorem flatMap_escapeLabel (t : Text) : t.flatMap Dot.escapeLabel
    = replaceWith '\r' [' '] (replaceWith '\n' [' ']
      (replaceWith '"' ['\\', '"'] (replaceWith '\\' ['\\', '\\'] t))) := by
  simp only [replaceWith, List.flatMap_assoc]
  congr 1
  funext c
  unfold Dot.escapeLabel
  split
  · rename_i h
    subst h
    rfl
  split
  · rename_i h
    subst h
    rfl
  split
  · rename_i h
    rcases h with rfl | rfl <;> rfl
  · rename_i hslash hquote hline
    rw [not_or] at hline
    simp [hquote, hline]

/-! ## reading a label -/

namespace Dot

variable (pair : Char → Text)

/-- by induction on the label: a character that is escaped is taken in one step, and no other one
is a quote or a backslash -/
theorem readRest_escapeLabel (t rest : Text) :
    readRest pair (t.flatMap escapeLabel ++ '"' :: rest) = some (onOneLine t, rest) := by
  induction t with
  | nil => rfl
  | cons c t ih =>
    have hkept : ∀ d, d ≠ '"' → d ≠ '\\' → escapeLabel c = [d] → onOneLine [c] = [d] →
        readRest pair ((c :: t).flatMap escapeLabel ++ '"' :: rest)
          = some (onOneLine (c :: t), rest) := by
      intro d hquote hslash hwritten hread
      have hfirst : onOneLine (c :: t) = onOneLine [c] ++ onOneLine t := rfl
      rw [List.flatMap_cons, hwritten, List.append_assoc, List.singleton_append,
        readRest_ordinary pair hquote hslash, ih, hfirst, hread]
      rfl
    by_cases hslash : c = '\\'
    · subst hslash
      show readRest pair ('\\' :: '\\' :: (t.flatMap escapeLabel ++ '"' :: rest)) = _
      rw [readRest_pair, ih]
      rfl
    by_cases hquote : c = '"'
    · subst hquote
      show readRest pair ('\\' :: '"' :: (t.flatMap escapeLabel ++ '"' :: rest)) = _
      rw [readRest_pair, ih]
      rfl
    by_cases hline : c = '\n' ∨ c = '\r'
    · refine hkept ' ' (by decide) (by decide) ?_ ?_
      · rcases hline with rfl | rfl <;> rfl
      · rcases hline with rfl | rfl <;> rfl
    · refine hkept c hquote hslash ?_ ?_
      · rw [escapeLabel, if_neg hslash, if_neg hquote, if_neg hline]
      · rw [not_or] at hline
        simp [onOneLine, replaceChar, hline]

theorem readToken_quoteLabel (t : Text) :
    readToken pair (quoteLabel t) = some (onOneLine t, []) := readRest_escapeLabel pair t []

end Dot

theorem onOneLine_eq {t : Text} (hn : '\n' ∉ t) (hr : '\r' ∉ t) : onOneLine t = t := by
  have hkept : ∀ {a : Char}, a ∉ t → replaceChar a ' ' t = t := by
    intro a ha
    refine (List.map_congr_left fun c hc => if_neg ?_).trans (List.map_id t)
    rintro rfl
    exact ha hc
  rw [onOneLine, hkept hn, hkept hr]

/-! ## the labels of a graph -/

def GraphNode.label? {ι : Type} (n : GraphNode ι) : Option Value :=
  n.attributes.lookup "label".toList

/-- the label of the `i`-th node -/
def Graph.labelAt? {ι : Type} (g : Graph ι) (i : Nat) : Option Value :=
  g.nodes[i]?.bind GraphNode.label?

section
variable {ι : Type} (lang : Language) (g : Graph ι)

theorem quotesAll_language : Dot.quotesAll (some lang.name) = true := by
  cases lang <;> decide

theorem lookup_withNodeLabel {a : Attributes} {l : Text}
    (h : a.lookup "label".toList = some (.text l)) :
    (Dot.withNodeLabel (some lang.name) a).lookup "label".toList
      = some (.text (Dot.quoteLabel l)) := by
  rw [Dot.withNodeLabel, h]
  show (Assoc.set a "label".toList (.text (Dot.nodeLabel (some lang.name) l))).lookup _ = _
  rw [Assoc.lookup_set_self, Dot.nodeLabel, if_pos (quotesAll_language lang)]

theorem labelAt?_withQuotedLabels {i : Nat} {l : Text} (h : g.labelAt? i = some (.text l)) :
    (g.withQuotedLabels (some lang.name)).labelAt? i = some (.text (Dot.quoteLabel l)) := by
  obtain ⟨n, hn, hlabel⟩ := Option.bind_eq_some_iff.1 h
  have hnode : (g.withQuotedLabels (some lang.name)).nodes[i]?
      = some { n with attributes := Dot.withNodeLabel (some lang.name) n.attributes } := by
    show (g.nodes.map _)[i]? = _
    rw [List.getElem?_map, hn]
    rfl
  rw [Graph.labelAt?, hnode]
  exact lookup_withNodeLabel lang hlabel

/-- **the label of a node is one token, from which it is read back** but for its line ends; so the
labels that are written tell the labels apart -/
theorem nodeLabel_isToken (pair : Char → Text) :
    (∀ i l, g.labelAt? i = some (.text l) → ∃ token,
      (g.withQuotedLabels (some lang.name)).labelAt? i = some (.text token) ∧
      token = '"' :: (replaceWith '\r' [' '] (replaceWith '\n' [' ']
        (replaceWith '"' ['\\', '"'] (replaceWith '\\' ['\\', '\\'] l))) ++ ['"']) ∧
      Dot.readToken pair token = some (onOneLine l, []) ∧ Dot.value token = token) ∧
    ∀ i j l l', g.labelAt? i = some (.text l) → g.labelAt? j = some (.text l') →
      '\n' ∉ l → '\r' ∉ l → '\n' ∉ l' → '\r' ∉ l' →
      (g.withQuotedLabels (some lang.name)).labelAt? i
        = (g.withQuotedLabels (some lang.name)).labelAt? j → l = l' := by
  constructor
  · intro i l h
    refine ⟨Dot.quoteLabel l, labelAt?_withQuotedLabels lang g h, ?_,
      Dot.readToken_quoteLabel pair l, Dot.value_quoted _⟩
    rw [← flatMap_escapeLabel]
    rfl
  · intro i j l l' hi hj hn hr hn' hr' hsame
    rw [labelAt?_withQuotedLabels lang g hi, labelAt?_withQuotedLabels lang g hj] at hsame
    have htoken : Dot.quoteLabel l = Dot.quoteLabel l' := Value.text.inj (Option.some.inj hsame)
    have hread := congrArg (Dot.readToken pair) htoken
    rw [Dot.readToken_quoteLabel, Dot.readToken_quoteLabel, onOneLine_eq hn hr,
      onOneLine_eq hn' hr'] at hread
    exact congrArg Prod.fst (Option.some.inj hread)

end

/-- one label with all that is escaped, and two that differ in a backslash only -/
def mixedLabels : Graph Nat := ⟨true, [], [
  ⟨0, [("label".toList, .text "a\\\"\n\\".toList)]⟩,
  ⟨1, [("line".toList, .number 1), ("label".toList, .text "\\".toList)]⟩,
  ⟨2, [("label".toList, .text "\\\\".toList)]⟩], []⟩

theorem nodeLabel_isToken_mixed :
    mixedLabels.labelAt? 0 = some (.text "a\\\"\n\\".toList) ∧
    mixedLabels.labelAt? 1 = some (.text "\\".toList) ∧
    mixedLabels.labelAt? 2 = some (.text "\\\\".toList) ∧
    (∃ token, (mixedLabels.withQuotedLabels (some Language.cpp.name)).labelAt? 0
        = some (.text token) ∧ token = "\"a\\\\\\\" \\\\\"".toList ∧
      Dot.readToken (fun c => ['\\', c]) token = some ("a\\\" \\".toList, [])) ∧
    (mixedLabels.withQuotedLabels (some Language.cpp.name)).labelAt? 1
      ≠ (mixedLabels.withQuotedLabels (some Language.cpp.name)).labelAt? 2 := by
  obtain ⟨hreads, hinjective⟩ := nodeLabel_isToken .cpp mixedLabels fun c => ['\\', c]
  obtain ⟨token, hlabel, htoken, hread, _⟩ := hreads 0 _ rfl
  refine ⟨rfl, rfl, rfl, ⟨token, hlabel, htoken.trans (by decide), hread.trans (by decide)⟩, ?_⟩
  intro hsame
  have hone := hinjective 1 2 "\\".toList "\\\\".toList rfl rfl (by decide) (by decide) (by decide)
    (by decide) hsame
  exact absurd hone (by decide)

end CodeChart
