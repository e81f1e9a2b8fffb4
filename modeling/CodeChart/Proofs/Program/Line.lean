import CodeChart.Proofs.Builder.Outline
import CodeChart.Proofs.Source.FirstWord
import CodeChart.Proofs.Source.Lines
import CodeChart.Proofs.Source.Whole

/-!
# The lines of plain programs

* `Callee`, `Group`   what is called or defined, and what stands between parentheses;
* `grouped`           a text with a group in parentheses after it;
* `IsLine`            a line that is one statement, of a kind and with a place in the scopes;
* `isLine_call`, `isLine_function`, `isLine_if`, `isLine_else`, `isLine_while`, `isLine_try`,
  `isLine_catch`      the lines that programs are written with;
* `isWholeLine_close` the closing brace on a line of its own.
-/

namespace CodeChart

/-! ## callees and groups -/

/-- a word that is no keyword, and what stands between it and a parenthesis: nothing in `f(x)`,
the object and an access operator in `a.f(x)`, a type in `int f(x)` -/
structure Callee where
  word : Text
  rest : Text
  start : IsPlainStart word rest
  inert : rest.all isInert = true
  oneLine : '\n' ∉ rest
  noSlash : '/' ∉ rest

def Callee.text (f : Callee) : Text := f.word ++ f.rest

/-- a condition or the arguments of a call: parentheses, literals and braces are closed in it, and
no comment starts in it -/
structure Group where
  text : Text
  balanced : isBalanced 0 .outside text = true
  braces : braceBalance text = 0
  oneLine : '\n' ∉ text
  noBlockComment : hasPair '/' '*' text = false
  noLineComment : hasPair '/' '/' text = false

/-- `w(g)` and what follows it -/
def grouped (w : Text) (g : Group) (rest : Text) : Text := w ++ '(' :: (g.text ++ ')' :: rest)

theorem grouped_eq (w : Text) (g : Group) (rest : Text) :
    grouped w g rest = w ++ '(' :: (g.text ++ [')']) ++ rest := by
  simp [grouped]

/-! ## whole lines -/

/-- what may stand in front of a group -/
structure IsLead (w : Text) : Prop where
  visible : ∃ c r, w = c :: r ∧ isBlank c = false
  inert : w.all isInert = true
  oneLine : '\n' ∉ w
  noSlash : '/' ∉ w
  noElse : ∀ r, afterElse? (w ++ '(' :: r) = none

theorem IsLead.isInert {w : Text} (h : IsLead w) : ∀ c ∈ w, isInert c = true :=
  List.all_eq_true.1 h.inert

theorem IsLead.not_mem {w : Text} (h : IsLead w) {c : Char} (hc : CodeChart.isInert c = false) :
    c ∉ w := by
  intro hm
  rw [h.isInert c hm] at hc
  cases hc

theorem hasPair_grouped {w : Text} (hw : IsLead w) (g : Group) {rest : Text} {b : Char}
    (hg : hasPair '/' b g.text = false) (hrest : '/' ∉ rest) (ho : '(' ≠ b) (hc : ')' ≠ b) :
    hasPair '/' b (grouped w g rest) = false := by
  rw [grouped, hasPair_append_cons (by decide) ho, hasPair_append_cons (by decide) hc, hg,
    hasPair_of_not_mem hw.noSlash, hasPair_of_not_mem hrest]
  rfl

theorem isKept_grouped {w : Text} (hw : IsLead w) (g : Group) {rest : Text}
    (hrest : ∀ c ∈ rest, isInert c = true) : IsKept (grouped w g rest) := by
  rw [grouped_eq]
  have hgroup := (isKept_of_inert hw.isInert).append (isKept_group g.balanced)
  exact hgroup.append (isKept_of_inert hrest)

theorem trim_grouped {w : Text} (hw : IsLead w) (g : Group) (rest : Text) {d : Char}
    (hd : isBlank d = false) : trim (grouped w g (rest ++ [d])) = grouped w g (rest ++ [d]) := by
  obtain ⟨c, r, rfl, hc⟩ := hw.visible
  have hends : grouped (c :: r) g (rest ++ [d])
      = c :: ((r ++ '(' :: (g.text ++ ')' :: rest)) ++ [d]) := by
    simp [grouped]
  rw [hends, trim_of_visible_ends hc hd]

theorem isWholeLine_grouped {w : Text} (hw : IsLead w) (g : Group) {rest : Text}
    (hn : '\n' ∉ rest) (hs : '/' ∉ rest) (htrim : trim (grouped w g rest) = grouped w g rest)
    (hseg : segments (grouped w g rest) = [grouped w g rest])
    (hrest : (trim rest).head? = some '{' ∨ (trim rest).head? = some ';') :
    IsWholeLine (grouped w g rest) where
  oneLine := by
    have hwn := hw.oneLine
    have hgn := g.oneLine
    simp [grouped, hwn, hgn, hn]
  noBlockComment := hasPair_grouped hw g g.noBlockComment hs (by decide) (by decide)
  noLineComment := hasPair_grouped hw g g.noLineComment hs (by decide) (by decide)
  trimmed := htrim
  single := by
    have helse : elseBody? (grouped w g rest) = none := by
      rw [elseBody?, grouped, hw.noElse]
    have hcond : conditionBody? (grouped w g rest) = none :=
      conditionBody?_of_group (hw.not_mem (by decide)) g.balanced hrest
    rw [splitLine, hseg, List.flatMap_singleton, peelHeaders_of_none helse hcond]

theorem isWholeLine_semicolon {w : Text} (hw : IsLead w) (g : Group) :
    IsWholeLine (grouped w g [';']) := by
  have htrim := trim_grouped hw g [] (d := ';') (by decide)
  have hsplit : grouped w g [';'] = grouped w g [] ++ [';'] := by simp [grouped]
  refine isWholeLine_grouped hw g (by decide) (by decide) htrim ?_ (by decide)
  rw [List.nil_append, hsplit] at htrim
  rw [hsplit]
  exact segments_semicolon (isKept_grouped hw g (by simp)) htrim

theorem isWholeLine_brace {w : Text} (hw : IsLead w) (g : Group) :
    IsWholeLine (grouped w g [' ', '{']) := by
  have htrim := trim_grouped hw g [' '] (d := '{') (by decide)
  have hsplit : grouped w g [' ', '{'] = grouped w g [' '] ++ ['{'] := by simp [grouped]
  have hhead : trimLeft (grouped w g [' ']).reverse = ')' :: (w ++ '(' :: g.text).reverse := by
    have hrev : (grouped w g [' ']).reverse = ' ' :: ')' :: (w ++ '(' :: g.text).reverse := by
      simp [grouped]
    rw [hrev, trimLeft_cons_of_blank (by decide), trimLeft_cons_of_visible (by decide)]
  refine isWholeLine_grouped hw g (by decide) (by decide) htrim ?_ (by decide)
  rw [show [' '] ++ ['{'] = [' ', '{'] from rfl, hsplit] at htrim
  rw [hsplit]
  exact segments_brace (isKept_grouped hw g (List.all_eq_true.1 rfl))
    (opensInitializer_of_head hhead (by decide) (by decide) (by decide)) htrim

/-! ## statements -/

/-- a line that is one statement, which is of kind `k` and is put at `p` -/
structure IsLine (t : Text) (k : Kind) (p : Placement) : Prop where
  whole : IsWholeLine t
  ordinary : IsOrdinary t
  kind : Kind.ofText t = k
  placement : k.placement t = p

theorem braceBalance_grouped {w : Text} (hw : IsLead w) (g : Group) (rest : Text) :
    braceBalance (grouped w g rest) = braceBalance rest := by
  have hl : w.count '{' = 0 := List.count_eq_zero.2 (hw.not_mem (by decide))
  have hr : w.count '}' = 0 := List.count_eq_zero.2 (hw.not_mem (by decide))
  have hlead : braceBalance w = 0 := by simp [braceBalance, hl, hr]
  have hopen : braceBalance ['('] = 0 := rfl
  have hclose : braceBalance [')'] = 0 := rfl
  have hsplit : grouped w g rest = w ++ (['('] ++ (g.text ++ ([')'] ++ rest))) := rfl
  rw [hsplit, braceBalance_append, braceBalance_append, braceBalance_append, braceBalance_append,
    hlead, hopen, g.braces, hclose]
  omega

/-- a statement whose braces do not close anything, and that starts with no brace, is ordinary -/
theorem isOrdinary_grouped {w : Text} (hw : IsLead w) (g : Group) {rest : Text}
    (hd : declares (grouped w g rest) = false) (hs : isSkipped (grouped w g rest) = false)
    (hb : 0 ≤ braceBalance rest) : IsOrdinary (grouped w g rest) := by
  obtain ⟨c, r, rfl, _⟩ := hw.visible
  have hc := hw.isInert c List.mem_cons_self
  have hhead : (grouped (c :: r) g rest).head? = some c := rfl
  have hne : ∀ d, isInert d = false → c ≠ d := by
    rintro d hd rfl
    rw [hc] at hd
    cases hd
  refine ⟨hd, hs, ?_, ?_⟩
  · intro he
    rw [he] at hhead
    exact hne '{' (by decide) (Option.some.inj hhead).symm
  · have hbrace : (some c == some '}') = false := beq_eq_false_iff_ne.2 fun he =>
      hne '}' (by decide) (Option.some.inj he)
    have hneg : ¬ braceBalance rest < 0 := by omega
    simp [closesScope, hhead, hbrace, braceBalance_grouped hw, hneg]

/-- a statement with a block that is left open -/
theorem isLine_opener {w : Text} (hw : IsLead w) (g : Group) {k : Kind}
    (hd : declares (grouped w g [' ', '{']) = false)
    (hs : isSkipped (grouped w g [' ', '{']) = false)
    (hk : Kind.ofText (grouped w g [' ', '{']) = k) (hj : k ≠ .jump) :
    IsLine (grouped w g [' ', '{']) k .nest := by
  have hbal : braceBalance (grouped w g [' ', '{']) = 1 := braceBalance_grouped hw g _
  have hheader := ofHeader_of_open hbal
  have hsibling := ofSibling_of_open hbal
  have hlast : (grouped w g [' ', '{']).getLast? = some '{' := by
    rw [grouped_eq, List.getLast?_append]
    rfl
  refine ⟨isWholeLine_brace hw g, isOrdinary_grouped hw g hd hs (by decide), hk, ?_⟩
  cases k with
  | jump => exact absurd rfl hj
  | loop =>
    rw [Kind.placement, hlast, if_neg (by decide)]
    exact hheader
  | caseLabel => exact hsibling
  | plain => exact hsibling
  | _ => exact hheader

/-! ## callees in front of a group -/

theorem isInert_of_isWord {c : Char} (h : isWord c = true) : isInert c = true := by
  have hne : ∀ d, isWord d = false → (c == d) = false := by
    intro d hd
    refine beq_eq_false_iff_ne.2 ?_
    rintro rfl
    rw [h] at hd
    cases hd
  simp [isInert, isQuote, hne _ (show isWord '"' = false by decide), hne '\'' (by decide),
    hne '(' (by decide), hne ')' (by decide), hne '{' (by decide), hne '}' (by decide),
    hne ';' (by decide), hne ':' (by decide)]

theorem Callee.starts (f : Callee) (r : Text) : IsPlainStart f.word (f.rest ++ '(' :: r) := by
  refine { f.start with ends := ?_ }
  cases hf : f.rest with
  | nil => rfl
  | cons c u =>
    have hends := f.start.ends
    rw [hf] at hends
    exact hends

theorem Callee.text_append (f : Callee) (r : Text) :
    f.text ++ '(' :: r = f.word ++ (f.rest ++ '(' :: r) := List.append_assoc _ _ _

theorem Callee.isLead (f : Callee) : IsLead f.text where
  visible := by
    cases hf : f.word with
    | nil => exact absurd hf f.start.nonempty
    | cons c u =>
      have hc : isWord c = true := f.start.isWord c (by rw [hf]; simp)
      exact ⟨c, u ++ f.rest, by rw [Callee.text, hf]; rfl, isBlank_of_isWord hc⟩
  inert := by
    have hword : f.word.all isInert = true :=
      List.all_eq_true.2 fun c hc => isInert_of_isWord (f.start.isWord c hc)
    rw [Callee.text, List.all_append, hword, f.inert]
    rfl
  oneLine := by
    rw [Callee.text, List.mem_append, not_or]
    exact ⟨f.start.not_mem (by decide), f.oneLine⟩
  noSlash := by
    rw [Callee.text, List.mem_append, not_or]
    exact ⟨f.start.not_mem (by decide), f.noSlash⟩
  noElse r := by
    rw [f.text_append]
    exact (f.starts r).afterElse?_eq

theorem Callee.declares_eq (f : Callee) (g : Group) (r : Text) :
    declares (grouped f.text g r) = false := by
  rw [grouped, f.text_append]
  exact (f.starts _).declares_eq

theorem Callee.isSkipped_eq (f : Callee) (g : Group) (r : Text) :
    isSkipped (grouped f.text g r) = false := by
  rw [grouped, f.text_append]
  exact (f.starts _).isSkipped_eq

theorem Callee.ofText_eq (f : Callee) (g : Group) (r : Text) :
    Kind.ofText (grouped f.text g r) = .plain := by
  rw [grouped, f.text_append]
  exact (f.starts _).ofText_eq

/-! ## the lines -/

/-- a plain call on a line of its own -/
theorem isLine_call (f : Callee) (x : Group) : IsLine (grouped f.text x [';']) .plain .chain where
  whole := isWholeLine_semicolon f.isLead x
  ordinary := isOrdinary_grouped f.isLead x (f.declares_eq x _) (f.isSkipped_eq x _) (by decide)
  kind := f.ofText_eq x _
  placement := ofSibling_of_balanced (braceBalance_grouped f.isLead x [';'])

theorem isLine_function (f : Callee) (x : Group) :
    IsLine (grouped f.text x [' ', '{']) .plain .nest :=
  isLine_opener f.isLead x (f.declares_eq x _) (f.isSkipped_eq x _) (f.ofText_eq x _) (by decide)

theorem isLine_if (c : Group) : IsLine (grouped "if ".toList c [' ', '{']) .conditional .nest :=
  isLine_opener ⟨⟨'i', _, rfl, by decide⟩, by decide, by decide, by decide, fun _ => rfl⟩ c rfl rfl
    rfl (by decide)

theorem isLine_while (c : Group) : IsLine (grouped "while ".toList c [' ', '{']) .loop .nest :=
  isLine_opener ⟨⟨'w', _, rfl, by decide⟩, by decide, by decide, by decide, fun _ => rfl⟩ c rfl rfl
    rfl (by decide)

theorem isLine_catch (e : Group) : IsLine (grouped "catch ".toList e [' ', '{']) .handler .nest :=
  isLine_opener ⟨⟨'c', _, rfl, by decide⟩, by decide, by decide, by decide, fun _ => rfl⟩ e rfl rfl
    rfl (by decide)

theorem isLine_else : IsLine "else \x7b".toList .alternative .nest where
  whole := ⟨by decide, by decide, by decide, by decide, by decide +kernel⟩
  ordinary := ⟨by decide, by decide, by decide, by decide⟩
  kind := rfl
  placement := by decide

theorem isLine_try : IsLine "try \x7b".toList .tryBlock .nest where
  whole := ⟨by decide, by decide, by decide, by decide, by decide +kernel⟩
  ordinary := ⟨by decide, by decide, by decide, by decide⟩
  kind := rfl
  placement := by decide

theorem isWholeLine_close : IsWholeLine ['}'] :=
  ⟨by decide, by decide, by decide, by decide, by decide +kernel⟩

end CodeChart
