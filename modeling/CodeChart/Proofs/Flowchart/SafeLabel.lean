import CodeChart.Proofs.Flowchart.Label

/-!
# Labels that are safe as they are

Entities are decoded before a label is changed and encoded again at the end.  Between the two, every
character that a reader sees is one character of the text, so that nothing is lost on the way and no
entity is cut.

* `visibleLength`         how many characters a reader sees;
* `IsSafe`                a label that cannot end where it is embedded, and is short;
* `isSafe_encodeEntities` encoding makes a short text without quotes and brackets safe;
* `encodeEntities_decodeEntities`   what is decoded in a safe text is encoded again;
* `sanitize_projects`     `sanitize` is a projection whose image are the safe labels.
-/

namespace CodeChart

/-! ## safe labels -/

/-- what stands behind the ampersand of an entity -/
def entityTails : List Text := ["amp;".toList, "lt;".toList, "gt;".toList]

/-- an entity is one visible character, and so is any other character -/
def visibleLength : Text → Nat
  | '&' :: 'a' :: 'm' :: 'p' :: ';' :: rest => visibleLength rest + 1
  | '&' :: 'l' :: 't' :: ';' :: rest => visibleLength rest + 1
  | '&' :: 'g' :: 't' :: ';' :: rest => visibleLength rest + 1
  | _ :: rest => visibleLength rest + 1
  | [] => 0

structure IsSafe (t : Text) : Prop where
  plain : ∀ c ∈ ['"', '[', ']', '{', '}', '<', '>'], c ∉ t
  /-- every ampersand begins an entity -/
  entities : ∀ rest, '&' :: rest <:+ t → ∃ e ∈ entityTails, e <+: rest
  short : visibleLength t ≤ 50

theorem length_decodeEntities (t : Text) : (decodeEntities t).length = visibleLength t := by
  fun_induction visibleLength t with
  | case1 rest ih => exact congrArg (· + 1) ih
  | case2 rest ih => exact congrArg (· + 1) ih
  | case3 rest ih => exact congrArg (· + 1) ih
  | case4 c rest hamp hlt hgt ih =>
    rw [decodeEntities.eq_4 c rest hamp hlt hgt, List.length_cons, ih]
  | case5 => rfl

theorem visibleLength_encodeEntities (t : Text) : visibleLength (encodeEntities t) = t.length := by
  rw [← length_decodeEntities, decodeEntities_encodeEntities]

/-! ## encoding -/

theorem entity_of_ordinary {c : Char} (h : c ∉ ['&', '<', '>']) : entity c = [c] := by
  simp only [List.mem_cons, List.not_mem_nil, or_false, not_or] at h
  rw [entity, if_neg h.1, if_neg h.2.1, if_neg h.2.2]

theorem entity_of_markup {c : Char} (h : c ∈ ['&', '<', '>']) :
    ∃ e ∈ entityTails, entity c = '&' :: e := by
  simp only [List.mem_cons, List.not_mem_nil, or_false] at h
  rcases h with rfl | rfl | rfl
  · exact ⟨"amp;".toList, by decide, rfl⟩
  · exact ⟨"lt;".toList, by decide, rfl⟩
  · exact ⟨"gt;".toList, by decide, rfl⟩

/-- no quote and no bracket -/
def HasNoBrackets (t : Text) : Prop := ∀ c ∈ ['"', '[', ']', '{', '}'], c ∉ t

theorem plain_encodeEntities {t : Text} (h : HasNoBrackets t) :
    ∀ c ∈ ['"', '[', ']', '{', '}', '<', '>'], c ∉ encodeEntities t := by
  intro c hc hm
  obtain ⟨d, hd, hcd⟩ := List.mem_flatMap.1 hm
  by_cases hmarkup : d ∈ ['&', '<', '>']
  · obtain ⟨e, he, heq⟩ := entity_of_markup hmarkup
    have hfixed : ∀ e ∈ entityTails,
        (['"', '[', ']', '{', '}', '<', '>'].all fun x => x ∉ '&' :: e) = true := by decide
    exact of_decide_eq_true (List.all_eq_true.1 (hfixed e he) c hc) (heq ▸ hcd)
  · rw [entity_of_ordinary hmarkup, List.mem_singleton] at hcd
    subst hcd
    rcases (List.mem_append (s := ['"', '[', ']', '{', '}'])).1 hc with hbracket | hangle
    · exact h c hbracket hd
    · exact hmarkup (List.mem_cons_of_mem '&' hangle)

/-- an ampersand that does not stand in the first text stands in the second one -/
theorem suffix_of_not_mem {c : Char} {a b rest : Text} (h : c ∉ a) (hs : c :: rest <:+ a ++ b) :
    c :: rest <:+ b := by
  induction a with
  | nil => exact hs
  | cons d a ih =>
    rw [List.mem_cons, not_or] at h
    rcases List.suffix_cons_iff.1 hs with heq | hs
    · exact absurd (List.cons.inj heq).1 h.1
    · exact ih h.2 hs

theorem entities_encodeEntities {t rest : Text} (h : '&' :: rest <:+ encodeEntities t) :
    ∃ e ∈ entityTails, e <+: rest := by
  induction t with
  | nil => cases List.suffix_nil.1 h
  | cons c t ih =>
    rw [encodeEntities_cons] at h
    by_cases hmarkup : c ∈ ['&', '<', '>']
    · obtain ⟨e, he, heq⟩ := entity_of_markup hmarkup
      rw [heq, List.cons_append, List.suffix_cons_iff] at h
      rcases h with hhere | hlater
      · obtain ⟨_, rfl⟩ := List.cons.inj hhere
        exact ⟨e, he, List.prefix_append e _⟩
      · have hone : ∀ e ∈ entityTails, '&' ∉ e := by decide
        exact ih (suffix_of_not_mem (hone e he) hlater)
    · rw [entity_of_ordinary hmarkup] at h
      have hother : '&' ∉ [c] := fun hm => hmarkup (List.mem_singleton.1 hm ▸ List.mem_cons_self)
      exact ih (suffix_of_not_mem hother h)

theorem isSafe_encodeEntities {t : Text} (h : HasNoBrackets t) (hlen : t.length ≤ 50) :
    IsSafe (encodeEntities t) where
  plain := plain_encodeEntities h
  entities _ := entities_encodeEntities
  short := by rwa [visibleLength_encodeEntities]

/-! ## decoding -/

/-- the characters of markup stand for themselves nowhere -/
structure IsEncoded (t : Text) : Prop where
  noMarkup : ∀ c ∈ ['<', '>'], c ∉ t
  entities : ∀ rest, '&' :: rest <:+ t → ∃ e ∈ entityTails, e <+: rest

theorem IsEncoded.of_suffix {s t : Text} (h : IsEncoded t) (hs : s <:+ t) : IsEncoded s where
  noMarkup c hc hm := h.noMarkup c hc (hs.subset hm)
  entities rest hrest := h.entities rest (hrest.trans hs)

theorem IsSafe.isEncoded {t : Text} (h : IsSafe t) : IsEncoded t where
  noMarkup c hc := h.plain c (List.mem_append_right ['"', '[', ']', '{', '}'] hc)
  entities := h.entities

theorem encodeEntities_decodeEntities {t : Text} (h : IsEncoded t) :
    encodeEntities (decodeEntities t) = t := by
  fun_induction decodeEntities t with
  | case1 rest ih =>
    exact congrArg ("&amp;".toList ++ ·) (ih (h.of_suffix (List.suffix_append "&amp;".toList rest)))
  | case2 rest ih =>
    exact congrArg ("&lt;".toList ++ ·) (ih (h.of_suffix (List.suffix_append "&lt;".toList rest)))
  | case3 rest ih =>
    exact congrArg ("&gt;".toList ++ ·) (ih (h.of_suffix (List.suffix_append "&gt;".toList rest)))
  | case4 c rest hamp hlt hgt ih =>
    have hord : c ∉ ['&', '<', '>'] := by
      intro hc
      rcases List.mem_cons.1 hc with rfl | hc
      · -- the three rules before this one would have read the entity
        obtain ⟨e, he, more, rfl⟩ := h.entities rest (List.suffix_refl _)
        rcases List.mem_cons.1 he with rfl | he
        · exact hamp more rfl rfl
        rcases List.mem_cons.1 he with rfl | he
        · exact hlt more rfl rfl
        · rw [List.mem_singleton.1 he] at hgt
          exact hgt more rfl rfl
      · exact h.noMarkup c hc List.mem_cons_self
    rw [encodeEntities_cons, entity_of_ordinary hord, ih (h.of_suffix (List.suffix_cons c rest))]
    rfl
  | case5 => rfl

/-! ## sanitizing -/

theorem plainChar_of_ordinary {c : Char} (h : c ∉ ['"', '[', ']', '{', '}']) :
    plainChar c = c := by
  simp only [List.mem_cons, List.not_mem_nil, or_false, not_or] at h
  obtain ⟨hquote, hbrackets⟩ := h
  rw [plainChar, if_neg hquote, if_neg]
  simpa only [not_or] using hbrackets

theorem plainChar_not_bracket (c : Char) : plainChar c ∉ ['"', '[', ']', '{', '}'] := by
  unfold plainChar
  split
  · decide
  split
  · decide
  · rename_i hquote hbrackets
    simpa [hquote] using hbrackets

theorem hasNoBrackets_map (t : Text) : HasNoBrackets (t.map plainChar) := by
  intro c hc hm
  obtain ⟨d, _, rfl⟩ := List.mem_map.1 hm
  exact plainChar_not_bracket d hc

theorem HasNoBrackets.shorten {t : Text} (h : HasNoBrackets t) :
    HasNoBrackets (shorten t) := by
  intro c hc hm
  rcases mem_shorten hm with hm | hm
  · exact h c hc hm
  · have hdot : c = '.' := List.eq_of_mem_replicate (n := 3) hm
    subst hdot
    exact absurd hc (by decide)

theorem isSafe_sanitize (t : Text) : IsSafe (sanitize t) :=
  isSafe_encodeEntities (hasNoBrackets_map _).shorten (length_shorten_le _)

theorem IsSafe.map_plainChar {t : Text} (h : IsSafe t) :
    (decodeEntities t).map plainChar = decodeEntities t := by
  have hfixed : ∀ c ∈ decodeEntities t, plainChar c = c := by
    intro c hc
    refine plainChar_of_ordinary fun hbracket => ?_
    rcases mem_decodeEntities hc with hc | hc
    · exact h.plain c (List.mem_append_left ['<', '>'] hbracket) hc
    · have hnone : ("&<>".toList.all fun x => x ∉ ['"', '[', ']', '{', '}']) = true := by decide
      exact of_decide_eq_true (List.all_eq_true.1 hnone c hc) hbracket
  rw [List.map_congr_left hfixed, List.map_id']

theorem IsSafe.sanitize_eq {t : Text} (h : IsSafe t) : sanitize t = t := by
  have hshort : ¬ (decodeEntities t).length > maxLabelLength := by
    rw [length_decodeEntities]
    exact Nat.not_lt.2 h.short
  rw [sanitize, h.map_plainChar, shorten, if_neg hshort, encodeEntities_decodeEntities h.isEncoded]

theorem sanitize_eq_self_iff (t : Text) : sanitize t = t ↔ IsSafe t :=
  ⟨fun h => h ▸ isSafe_sanitize t, IsSafe.sanitize_eq⟩

/-- what is kept of a long label are visible characters, none of them in part -/
theorem exists_kept_of_long {t : Text} (h : 50 < visibleLength t) :
    ∃ kept, IsSafe kept ∧ visibleLength kept = 47 ∧ sanitize t = kept ++ "...".toList := by
  have hlong : ((decodeEntities t).map plainChar).length > maxLabelLength := by
    rwa [List.length_map, length_decodeEntities]
  have hlen : (((decodeEntities t).map plainChar).take 47).length = 47 :=
    List.length_take_of_le (Nat.le_trans (by decide) (Nat.le_of_lt hlong))
  have hplain : HasNoBrackets (((decodeEntities t).map plainChar).take 47) :=
    fun c hc hm => hasNoBrackets_map _ c hc (List.mem_of_mem_take hm)
  refine ⟨encodeEntities (((decodeEntities t).map plainChar).take 47),
    isSafe_encodeEntities hplain (by rw [hlen]; decide), ?_, ?_⟩
  · rw [visibleLength_encodeEntities, hlen]
  · rw [sanitize, shorten, if_pos hlong, encodeEntities_append]
    rfl

/-- **sanitizing is a projection onto the safe labels**: what it makes is safe, and what is safe it
leaves alone; of a label that is too long it keeps whole visible characters -/
theorem sanitize_projects :
    (∀ t, IsSafe (sanitize t)) ∧ (∀ t, sanitize t = t ↔ IsSafe t) ∧
    (∀ t, sanitize (sanitize t) = sanitize t) ∧ (∀ t, IsSafe t ↔ ∃ s, sanitize s = t) ∧
    ∀ t, 50 < visibleLength t →
      ∃ kept, IsSafe kept ∧ visibleLength kept = 47 ∧ sanitize t = kept ++ "...".toList := by
  refine ⟨isSafe_sanitize, sanitize_eq_self_iff, fun t => (isSafe_sanitize t).sanitize_eq,
    fun t => ⟨fun h => ⟨t, h.sanitize_eq⟩, ?_⟩, fun t => exists_kept_of_long⟩
  rintro ⟨s, rfl⟩
  exact isSafe_sanitize s

/-- a cut between two entities, and a text that decodes to an entity -/
theorem sanitize_projects_ampersands :
    50 < visibleLength ("puts(\"".toList ++ List.replicate 50 '&') ∧
    (∃ kept, IsSafe kept ∧ visibleLength kept = 47 ∧
      sanitize ("puts(\"".toList ++ List.replicate 50 '&') = kept ++ "...".toList) ∧
    sanitize "a &amp;lt; b".toList = "a &amp;lt; b".toList ∧ IsSafe "a &amp;lt; b".toList := by
  obtain ⟨_, hfixed, _, _, hlong⟩ := sanitize_projects
  have hmany : 50 < visibleLength ("puts(\"".toList ++ List.replicate 50 '&') := by decide
  have hsame : sanitize "a &amp;lt; b".toList = "a &amp;lt; b".toList := by decide
  exact ⟨hmany, hlong _ hmany, hsame, (hfixed _).1 hsame⟩

end CodeChart
