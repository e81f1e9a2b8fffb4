import CodeChart.Proofs.Source.Peel
import CodeChart.Source.Statement

/-!
# Reading with jumps

A line can be read without modes: where a brace is seen ahead, the reader looks for its position and
goes on behind it, and a character that was taken is put back to cut in front of it.  Looking for a
character that is not there has no answer, and neither has putting back what was not taken; so has
the first parenthesis of a text without one.

* `Jumper`              a reader with jumps, and `Jumper.reader`, the reader that it stands for;
* `Jumper.jump?`, `Jumper.putBack?`   what can fail; `Jumper.step?_eq` says that they do not where
                        they are asked for;
* `conditionParts?`, `peelHeaders?`   headers that are peeled off, the first parenthesis looked for;
* `statements?`         the statements of a text in this way, and `statements?_eq`, that these are
                        always its statements;
* `IsBehindHeader`      what a peeled header leaves to peel, which is shorter.
-/

namespace CodeChart

/-! ## jumps -/

/-- `quote` is the one that opened the literal in which the reader stands -/
structure Jumper where
  quote : Option Char
  parens : Nat
  initializers : Nat
  pending : Text

def Jumper.fresh : Jumper := ⟨none, 0, 0, []⟩

def Jumper.take (j : Jumper) (t : Text) : Jumper := { j with pending := t.reverse ++ j.pending }

def Jumper.cut (j : Jumper) : Jumper × List Text := ({ j with pending := [] }, segment j.pending)

/-- takes everything up to the next `c`, if there is one; with the number of characters -/
def Jumper.jump? (j : Jumper) (c : Char) (rest : Text) : Option (Jumper × Nat) :=
  (rest.idxOf? c).map fun i => (j.take (rest.take (i + 1)), i + 1)

/-- without the character that was taken last, if there is one -/
def Jumper.putBack? (j : Jumper) : Option Jumper :=
  j.pending.tail?.map fun pending => { j with pending := pending }

/-! ## one character -/

def Jumper.openBrace? (j : Jumper) (rest : Text) : Option (Jumper × List Text × Nat) :=
  let brace := j.take ['{']
  if opensInitializer j.pending then some ({ brace with initializers := 1 }, [], 0)
  else if nextVisible rest = some '}' then
    (brace.jump? '}' rest).map fun (pair, n) =>
      if nextVisible (rest.drop n) = some ';' then (pair, [], n) else (pair.cut.1, pair.cut.2, n)
  else some (brace.cut.1, brace.cut.2, 0)

def Jumper.closeBrace? (j : Jumper) (rest : Text) : Option (Jumper × List Text × Nat) :=
  (j.take ['}']).putBack?.bind fun before =>
    let brace := before.cut.1.take ['}']
    if nextVisible rest = some ';' then
      (brace.jump? ';' rest).map fun (closer, n) =>
        (closer.cut.1, before.cut.2 ++ closer.cut.2, n)
    else some (brace.cut.1, before.cut.2 ++ brace.cut.2, 0)

/-- a character outside literals -/
def Jumper.code? (j : Jumper) (c : Char) (rest : Text) : Option (Jumper × List Text × Nat) :=
  let kept := j.take [c]
  if isQuote c then some ({ kept with quote := some c }, [], 0)
  else if c = '(' then some ({ kept with parens := j.parens + 1 }, [], 0)
  else if c = ')' then some ({ kept with parens := j.parens - 1 }, [], 0)
  else if j.parens > 0 then some (kept, [], 0)
  else if j.initializers > 0 then
    if c = '{' then some ({ kept with initializers := j.initializers + 1 }, [], 0)
    else if c = '}' then some ({ kept with initializers := j.initializers - 1 }, [], 0)
    else some (kept, [], 0)
  else if c = '{' then j.openBrace? rest
  else if c = '}' then j.closeBrace? rest
  else if c = ';' then some (kept.cut.1, kept.cut.2, 0)
  else if c = ':' ∧ endsLabel j.pending rest then some (kept.cut.1, kept.cut.2, 0)
  else some (kept, [], 0)

/-- a character in a literal; a backslash takes the next one with it, if there is one -/
def Jumper.literal (j : Jumper) (quote c : Char) (rest : Text) : Jumper × Nat :=
  if c = '\\' then
    match rest with
    | [] => (j.take [c], 0)
    | d :: _ => (j.take [c, d], 1)
  else if c = quote then ({ j.take [c] with quote := none }, 0)
  else (j.take [c], 0)

/-- the state behind `c`, the statements that end there, and the number of characters that were
taken as well -/
def Jumper.step? (j : Jumper) (c : Char) (rest : Text) : Option (Jumper × List Text × Nat) :=
  match j.quote with
  | none => j.code? c rest
  | some quote => some ((j.literal quote c rest).1, [], (j.literal quote c rest).2)

def Jumper.pieces? (j : Jumper) : Text → Option (List Text)
  | [] => some (segment j.pending)
  | c :: rest =>
    match j.step? c rest with
    | none => none
    | some (after, done, n) => (after.pieces? (rest.drop n)).map (done ++ ·)
termination_by t => t.length
decreasing_by
  rw [List.length_drop, List.length_cons]
  omega

/-! ## the reader of a jumper -/

def Jumper.mode (j : Jumper) : Mode :=
  match j.quote with
  | none => .code .outside
  | some quote => .code (.within quote)

def Jumper.reader (j : Jumper) : Reader := ⟨j.mode, j.parens, j.initializers, j.pending⟩

theorem idxOf?_append_cons {c : Char} {gap : Text} (h : c ∉ gap) (rest : Text) :
    (gap ++ c :: rest).idxOf? c = some gap.length := by
  induction gap with
  | nil => exact (List.idxOf?_cons ..).trans (if_pos (beq_self_eq_true c))
  | cons d gap ih =>
    rw [List.mem_cons, not_or] at h
    rw [List.cons_append, List.idxOf?_cons, if_neg (by simpa using Ne.symm h.1), ih h.2]
    rfl

/-- a jump to a character that is the next visible one -/
theorem Jumper.jump?_of_nextVisible (j : Jumper) {c : Char} {rest : Text}
    (h : nextVisible rest = some c) : ∃ gap behind, c ∉ gap ∧
      rest = gap ++ c :: behind ∧
      j.jump? c rest = some (j.take (gap ++ [c]), gap.length + 1) ∧
      rest.drop (gap.length + 1) = behind := by
  obtain ⟨gap, behind, hgap, rfl⟩ := exists_nextVisible h
  have hc : c ∉ gap := by
    intro hm
    have hblank := List.all_eq_true.1 hgap c hm
    rw [isBlank_of_nextVisible h] at hblank
    cases hblank
  have hlen : gap.length + 1 = (gap ++ [c]).length := by simp
  have hsplit : gap ++ c :: behind = (gap ++ [c]) ++ behind := by simp
  refine ⟨gap, behind, hc, rfl, ?_, ?_⟩
  · rw [Jumper.jump?, idxOf?_append_cons hc, Option.map_some, hlen, hsplit, List.take_left]
  · rw [hlen, hsplit, List.drop_left]

/-- the character that a reader waits for -/
def Mode.awaits : Mode → Option Char
  | .code _ => none
  | .emptyPair => some '}'
  | .closer => some ';'

theorem Reader.pieces_waiting {r : Reader} {c : Char} (hr : r.mode.awaits = some c) {gap : Text}
    (hc : c ∉ gap) (rest : Text) :
    r.pieces (gap ++ rest) = Reader.pieces { r with pending := gap.reverse ++ r.pending } rest := by
  induction gap generalizing r with
  | nil => rfl
  | cons d gap ih =>
    rw [List.mem_cons, not_or] at hc
    have hstep : r.step d (gap ++ rest) = (r.keep d, []) := by
      cases hm : r.mode with
      | code l =>
        rw [hm] at hr
        cases hr
      | emptyPair =>
        rw [hm] at hr
        obtain rfl := Option.some.inj hr
        simp only [Reader.step, hm, if_neg (Ne.symm hc.1)]
      | closer =>
        rw [hm] at hr
        obtain rfl := Option.some.inj hr
        simp only [Reader.step, hm, if_neg (Ne.symm hc.1)]
    rw [List.cons_append, Reader.pieces_cons, hstep, List.nil_append,
      ih (r := r.keep d) hr hc.2, List.reverse_cons, List.append_assoc]
    rfl

/-- what a reader waits for is the next visible character -/
theorem Reader.pieces_awaited {r : Reader} {c : Char} (hr : r.mode.awaits = some c) {rest : Text}
    (h : nextVisible rest = some c) : ∃ gap behind, allBlank gap = true ∧
      rest = gap ++ c :: behind ∧
      r.pieces rest
        = Reader.pieces { r with pending := gap.reverse ++ r.pending } (c :: behind) := by
  obtain ⟨gap, behind, hgap, rfl⟩ := exists_nextVisible h
  have hc : c ∉ gap := by
    intro hm
    have hblank := List.all_eq_true.1 hgap c hm
    rw [isBlank_of_nextVisible h] at hblank
    cases hblank
  exact ⟨gap, behind, hgap, rfl, Reader.pieces_waiting hr hc _⟩

namespace Jumper

variable {j : Jumper} {c : Char} {rest : Text}

theorem reader_take (j : Jumper) (t : Text) :
    (j.take t).reader = { j.reader with pending := t.reverse ++ j.pending } := rfl

theorem reader_cut (j : Jumper) : j.cut.1.reader = j.reader.cut.1 := rfl

theorem snd_cut (j : Jumper) : j.cut.2 = j.reader.cut.2 := rfl

/-- where the two agree after one character, they agree about the rest -/
theorem pieces_of_step {after : Jumper} {done : List Text}
    (h : j.reader.step c rest = (after.reader, done)) :
    j.reader.pieces (c :: rest) = done ++ after.reader.pieces (rest.drop 0) := by
  rw [Reader.pieces_cons, h, List.drop_zero]

/-- what a step has to give -/
def Agrees (j : Jumper) (c : Char) (rest : Text) (out : Option (Jumper × List Text × Nat)) : Prop :=
  ∃ after done n, out = some (after, done, n) ∧
    j.reader.pieces (c :: rest) = done ++ after.reader.pieces (rest.drop n)

theorem agrees_of_step {after : Jumper} {done : List Text}
    (h : j.reader.step c rest = (after.reader, done)) :
    j.Agrees c rest (some (after, done, 0)) :=
  ⟨after, done, 0, rfl, pieces_of_step h⟩

theorem step_reader (hq : j.quote = none) : j.reader.step c rest = j.reader.stepCode c rest := by
  simp only [Jumper.reader, Jumper.mode, hq, Reader.step]

theorem agrees_openBrace (hq : j.quote = none)
    (h : j.reader.step '{' rest = j.reader.openBrace rest) :
    j.Agrees '{' rest (j.openBrace? rest) := by
  have hmode : j.mode = .code .outside := by rw [Jumper.mode, hq]
  have hinit : opensInitializer j.reader.pending = opensInitializer j.pending := rfl
  rw [Reader.openBrace, hinit] at h
  simp only [Jumper.openBrace?]
  by_cases ho : opensInitializer j.pending = true
  · rw [if_pos ho] at h ⊢
    exact agrees_of_step h
  rw [if_neg ho] at h ⊢
  by_cases hn : nextVisible rest = some '}'
  · -- an empty pair: the reader waits for the brace, the jumper is behind it at once
    obtain ⟨gap, behind, hc, hrest, hjump, hdrop⟩ := (j.take ['{']).jump?_of_nextVisible hn
    have hwait : j.reader.pieces ('{' :: rest) = Reader.pieces
        ⟨.emptyPair, j.parens, j.initializers, gap.reverse ++ '{' :: j.pending⟩
        ('}' :: behind) := by
      rw [Reader.pieces_cons, h, if_pos hn, hrest]
      exact Reader.pieces_waiting (r := ⟨.emptyPair, j.parens, j.initializers, '{' :: j.pending⟩)
        rfl hc _
    have hpair : ((j.take ['{']).take (gap ++ ['}'])).reader
        = ⟨.code .outside, j.parens, j.initializers, '}' :: (gap.reverse ++ '{' :: j.pending)⟩ := by
      rw [reader_take, reader_take, List.reverse_append]
      exact congrArg (Reader.mk · _ _ _) hmode
    rw [if_pos hn, hjump, Option.map_some]
    simp only [hdrop]
    by_cases hsemi : nextVisible behind = some ';'
    · rw [if_pos hsemi]
      refine ⟨_, _, _, rfl, ?_⟩
      rw [hwait, hdrop, hpair, Reader.pieces_cons]
      simp only [Reader.step, if_pos hsemi]
      rfl
    · rw [if_neg hsemi]
      refine ⟨_, _, _, rfl, ?_⟩
      rw [hwait, hdrop, reader_cut, snd_cut, hpair, Reader.pieces_cons]
      simp only [Reader.step, if_neg hsemi]
      rfl
  · rw [if_neg hn] at h ⊢
    exact agrees_of_step h

theorem agrees_closeBrace (hq : j.quote = none)
    (h : j.reader.step '}' rest = j.reader.closeBrace rest) :
    j.Agrees '}' rest (j.closeBrace? rest) := by
  have hmode : j.mode = .code .outside := by rw [Jumper.mode, hq]
  have hback : (j.take ['}']).putBack? = some j := rfl
  simp only [Reader.closeBrace] at h
  simp only [Jumper.closeBrace?, hback, Option.bind_some]
  by_cases hn : nextVisible rest = some ';'
  · obtain ⟨gap, behind, hc, hrest, hjump, hdrop⟩ := (j.cut.1.take ['}']).jump?_of_nextVisible hn
    have hwait : j.reader.pieces ('}' :: rest) = segment j.pending ++ Reader.pieces
        ⟨.closer, j.parens, j.initializers, gap.reverse ++ ['}']⟩ (';' :: behind) := by
      rw [Reader.pieces_cons, h, if_pos hn, hrest]
      exact congrArg _ (Reader.pieces_waiting
        (r := ⟨.closer, j.parens, j.initializers, ['}']⟩) rfl hc _)
    have hcloser : ((j.cut.1.take ['}']).take (gap ++ [';'])).reader
        = ⟨.code .outside, j.parens, j.initializers, ';' :: (gap.reverse ++ ['}'])⟩ := by
      rw [reader_take, reader_take, List.reverse_append]
      exact congrArg (Reader.mk · _ _ _) hmode
    rw [if_pos hn, hjump, Option.map_some]
    refine ⟨_, _, _, rfl, ?_⟩
    rw [hwait, hdrop, reader_cut, snd_cut, snd_cut, hcloser, List.append_assoc, Reader.pieces_cons]
    rfl
  · rw [if_neg hn] at h ⊢
    exact agrees_of_step h

theorem agrees_code (hq : j.quote = none) : j.Agrees c rest (j.code? c rest) := by
  have hstep : j.reader.step c rest = j.reader.stepCode c rest := step_reader hq
  simp only [Reader.stepCode] at hstep
  simp only [Jumper.code?]
  by_cases hquote : isQuote c = true
  · rw [if_pos hquote] at hstep ⊢
    exact agrees_of_step hstep
  rw [if_neg hquote] at hstep ⊢
  by_cases hopen : c = '('
  · rw [if_pos hopen] at hstep ⊢
    exact agrees_of_step hstep
  rw [if_neg hopen] at hstep ⊢
  by_cases hclose : c = ')'
  · rw [if_pos hclose] at hstep ⊢
    exact agrees_of_step hstep
  rw [if_neg hclose] at hstep ⊢
  by_cases hparens : j.parens > 0
  · rw [if_pos (show j.reader.parens > 0 from hparens)] at hstep
    rw [if_pos hparens]
    exact agrees_of_step hstep
  rw [if_neg (show ¬ j.reader.parens > 0 from hparens)] at hstep
  rw [if_neg hparens]
  by_cases hinit : j.initializers > 0
  · rw [if_pos (show j.reader.initializers > 0 from hinit)] at hstep
    rw [if_pos hinit]
    split at hstep
    · rw [if_pos ‹_›]
      exact agrees_of_step hstep
    · rw [if_neg ‹_›]
      split at hstep
      · rw [if_pos ‹_›]
        exact agrees_of_step hstep
      · rw [if_neg ‹_›]
        exact agrees_of_step hstep
  rw [if_neg (show ¬ j.reader.initializers > 0 from hinit)] at hstep
  rw [if_neg hinit]
  by_cases hbrace : c = '{'
  · subst hbrace
    rw [if_pos rfl] at hstep ⊢
    exact agrees_openBrace hq hstep
  rw [if_neg hbrace] at hstep ⊢
  by_cases hend : c = '}'
  · subst hend
    rw [if_pos rfl] at hstep ⊢
    exact agrees_closeBrace hq hstep
  rw [if_neg hend] at hstep ⊢
  by_cases hsemi : c = ';'
  · rw [if_pos hsemi] at hstep ⊢
    exact agrees_of_step hstep
  rw [if_neg hsemi] at hstep ⊢
  by_cases hlabel : c = ':' ∧ endsLabel j.pending rest
  · rw [if_pos (show c = ':' ∧ endsLabel j.reader.pending rest from hlabel)] at hstep
    rw [if_pos hlabel]
    exact agrees_of_step hstep
  · rw [if_neg (show ¬ (c = ':' ∧ endsLabel j.reader.pending rest) from hlabel)] at hstep
    rw [if_neg hlabel]
    exact agrees_of_step hstep

theorem agrees_literal {quote : Char} (hq : j.quote = some quote) : j.Agrees c rest
    (some ((j.literal quote c rest).1, [], (j.literal quote c rest).2)) := by
  have hmode : j.mode = .code (.within quote) := by rw [Jumper.mode, hq]
  have hstep : j.reader.step c rest =
      ({ j.reader.keep c with mode := .code (Literal.next (.within quote) c) }, []) := by
    simp only [Reader.step, Jumper.reader, hmode]
  rw [Literal.next] at hstep
  simp only [Jumper.literal]
  by_cases hescape : c = '\\'
  · rw [if_pos hescape] at hstep ⊢
    -- the reader takes the next character when it comes to it
    cases rest with
    | nil => exact ⟨_, _, _, rfl, by rw [Reader.pieces_cons, hstep]; rfl⟩
    | cons d rest =>
      have htaken : (j.take [c, d]).reader
          = ⟨.code (.within quote), j.parens, j.initializers, d :: c :: j.pending⟩ :=
        congrArg (Reader.mk · _ _ _) hmode
      refine ⟨_, _, _, rfl, ?_⟩
      rw [Reader.pieces_cons, hstep, Reader.pieces_cons, htaken]
      rfl
  rw [if_neg hescape] at hstep ⊢
  by_cases hclose : c = quote
  · rw [if_pos hclose] at hstep ⊢
    exact agrees_of_step hstep
  · rw [if_neg hclose] at hstep ⊢
    refine agrees_of_step (hstep.trans ?_)
    rw [reader_take]
    exact congrArg (fun m => (Reader.mk m _ _ _, _)) hmode.symm

/-- nothing that a step looks for is missing -/
theorem agrees_step (j : Jumper) (c : Char) (rest : Text) : j.Agrees c rest (j.step? c rest) := by
  cases hq : j.quote with
  | none =>
    rw [Jumper.step?, hq]
    exact agrees_code hq
  | some quote =>
    rw [Jumper.step?, hq]
    exact agrees_literal hq

theorem pieces?_eq (j : Jumper) (t : Text) : j.pieces? t = some (j.reader.pieces t) := by
  induction hn : t.length using Nat.strong_induction_on generalizing j t with
  | _ n ih =>
    subst hn
    cases t with
    | nil =>
      rw [Jumper.pieces?]
      rfl
    | cons c rest =>
      obtain ⟨after, done, k, hstep, hpieces⟩ := j.agrees_step c rest
      have hshort : (rest.drop k).length < (c :: rest).length := by
        rw [List.length_drop, List.length_cons]
        omega
      rw [Jumper.pieces?, hstep, hpieces]
      simp only [ih _ hshort after _ rfl, Option.map_some]

end Jumper

def segments? (line : Text) : Option (List Text) := Jumper.fresh.pieces? line

theorem segments?_eq (line : Text) : segments? line = some (segments line) :=
  Jumper.fresh.pieces?_eq line

/-! ## headers -/

/-- a condition with the position of the parenthesis that opens it looked for, and its body -/
def conditionParts? (t : Text) : Option (Option (Text × Text)) :=
  if opensCondition t then
    (t.idxOf? '(').map fun start =>
      match closingParen? t start with
      | none => none
      | some i =>
        let body := trim (t.drop (i + 1))
        if body.isEmpty || body.head? = some '{' || body.head? = some ';' then none
        else some (t.take (i + 1), body)
  else some none

theorem conditionParts?_eq (t : Text) : conditionParts? t = some (conditionBody? t) := by
  rw [conditionParts?, conditionBody?]
  by_cases hopen : opensCondition t = true
  · obtain ⟨lead, rest, hlead, rfl⟩ := opensCondition_iff.1 hopen
    rw [if_pos hopen, if_pos hopen, idxOf?_append_cons hlead.no_parenthesis, hlead.idxOf_eq]
    rfl
  · rw [if_neg hopen, if_neg hopen]

/-- `body` is what is left of `t` when its first header is peeled off -/
def IsBehindHeader (t body : Text) : Prop :=
  elseBody? t = some body ∨
    elseBody? t = none ∧ ∃ header, conditionBody? t = some (header, body)

theorem IsBehindHeader.length_lt {t body : Text} (h : IsBehindHeader t body) :
    body.length < t.length := by
  rcases h with h | ⟨_, header, h⟩
  · exact length_elseBody?_lt h
  · exact length_conditionBody?_lt h

theorem IsBehindHeader.peelHeaders_eq {t body : Text} (h : IsBehindHeader t body) :
    ∃ header, peelHeaders t = header :: peelHeaders body := by
  rcases h with h | ⟨he, header, h⟩
  · exact ⟨_, peelHeaders_of_else h⟩
  · exact ⟨header, peelHeaders_of_condition he h⟩

theorem peelHeaders_of_not_behind {t : Text} (h : ∀ body, ¬ IsBehindHeader t body) :
    peelHeaders t = [t] := by
  have helse : elseBody? t = none := by
    cases he : elseBody? t with
    | none => rfl
    | some body => exact absurd (.inl he) (h body)
  refine peelHeaders_of_none helse ?_
  cases hc : conditionBody? t with
  | none => rfl
  | some parts => exact absurd (.inr ⟨helse, parts.1, hc⟩) (h parts.2)

def peelHeaders? (t : Text) : Option (List Text) :=
  match _h : elseBody? t with
  | some body => (peelHeaders? body).map ("else".toList :: ·)
  | none =>
    match _h : conditionParts? t with
    | none => none
    | some none => some [t]
    | some (some (header, body)) => (peelHeaders? body).map (header :: ·)
termination_by t.length
decreasing_by
  · exact length_elseBody?_lt _h
  · rw [conditionParts?_eq] at _h
    exact length_conditionBody?_lt (Option.some.inj _h)

theorem peelHeaders?_eq (t : Text) : peelHeaders? t = some (peelHeaders t) := by
  have hbody : ∀ {t parts}, conditionParts? t = some parts → conditionBody? t = parts :=
    fun {t parts} h => Option.some.inj ((conditionParts?_eq t).symm.trans h)
  fun_induction peelHeaders? t with
  | case1 t body he ih =>
    rw [ih, peelHeaders_of_else he]
    rfl
  | case2 t he hparts =>
    rw [conditionParts?_eq] at hparts
    cases hparts
  | case3 t he hparts => rw [peelHeaders_of_none he (hbody hparts)]
  | case4 t he header body hparts ih =>
    rw [ih, peelHeaders_of_condition he (hbody hparts)]
    rfl

/-! ## statements -/

def splitLine? (line : Text) : Option (List Text) :=
  (segments? line).bind fun segments => (segments.mapM peelHeaders?).map List.flatten

theorem splitLine?_eq (line : Text) : splitLine? line = some (splitLine line) := by
  have hpeel : peelHeaders? = fun t => some (peelHeaders t) := funext peelHeaders?_eq
  rw [splitLine?, segments?_eq, Option.bind_some, hpeel]
  exact congrArg _ List.mapM_pure

def LogicalLine.statements? (l : LogicalLine) : Option (List Statement) :=
  (splitLine? (trim (cutLineComment l.text))).map fun pieces => pieces.map fun t => ⟨t, l.line⟩

def statements? (src : Text) : Option (List Statement) :=
  ((logicalLines src).mapM LogicalLine.statements?).map List.flatten

theorem statements?_eq (src : Text) : statements? src = some (statements src) := by
  have hline : LogicalLine.statements? = fun l => some l.statements := by
    funext l
    rw [LogicalLine.statements?, splitLine?_eq]
    rfl
  rw [statements?, hline]
  exact congrArg _ List.mapM_pure

end CodeChart
