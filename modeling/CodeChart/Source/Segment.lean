import CodeChart.Source.Header

/-!
# Cutting a line into statements

A reader goes over the line one character at a time.  A statement ends after a `;` or an opening
brace outside parentheses, every closing brace stands alone (with a `;` directly after it), a
case label ends at its colon.  Initializer lists, empty pairs of braces and literals are
never cut.

* `Reader`, `Reader.step`  the state between two characters, and one character;
* `Reader.readAll`, `Reader.read`   a text, alone and in front of another; `readAll_append` says
                           that reading a text is reading its parts in turn;
* `segments`               the pieces of a line between the cuts;
* `splitLine`              the statements of a line: its segments with their headers peeled off.
-/

namespace CodeChart

/-! ## the state between two characters -/

/-- what the next character belongs to -/
inductive Mode where
  /-- code or a literal -/
  | code (literal : Literal)
  /-- the blanks of an empty pair of braces, and its closing brace -/
  | emptyPair
  /-- the blanks between a closing brace and its semicolon, and the semicolon -/
  | closer
  deriving DecidableEq, Repr

/-- `pending` holds the characters since the last cut, the latest first -/
structure Reader where
  mode : Mode
  parens : Nat
  initializers : Nat
  pending : Text
  deriving DecidableEq, Repr

def Reader.fresh : Reader := ⟨.code .outside, 0, 0, []⟩

def segment (pending : Text) : List Text :=
  let t := trim pending.reverse
  if t.isEmpty then [] else [t]

def Reader.keep (r : Reader) (c : Char) : Reader := { r with pending := c :: r.pending }

def Reader.cut (r : Reader) : Reader × List Text := ({ r with pending := [] }, segment r.pending)

theorem Reader.cut_fst (r : Reader) : r.cut.1 = { r with pending := [] } := rfl
theorem Reader.cut_snd (r : Reader) : r.cut.2 = segment r.pending := rfl

/-! ## what decides about a cut -/

/-- a brace after this text opens an initializer list: it follows `=`, a comma or `return` -/
def opensInitializer (pending : Text) : Bool :=
  let visible := trimLeft pending
  let word := "return".toList.reverse
  visible.head? == some '=' || visible.head? == some ','
    || (word.isPrefixOf visible && !continuesWord (visible.drop word.length))

def startsLabel (t : Text) : Bool :=
  startsWithWord "case".toList t || startsWithWord "default".toList t

/-- a colon after this text and before `rest` ends a case label -/
def endsLabel (pending rest : Text) : Bool :=
  rest.head? != some ':' && pending.head? != some ':'
    && startsLabel (trim (':' :: pending).reverse) && nextVisible rest != some '{'

/-! ## one character -/

def Reader.openBrace (r : Reader) (rest : Text) : Reader × List Text :=
  if opensInitializer r.pending then ({ r.keep '{' with initializers := 1 }, [])
  else if nextVisible rest = some '}' then ({ r.keep '{' with mode := .emptyPair }, [])
  else (r.keep '{').cut

def Reader.closeBrace (r : Reader) (rest : Text) : Reader × List Text :=
  let (before, done) := r.cut
  if nextVisible rest = some ';' then ({ before.keep '}' with mode := .closer }, done)
  else
    let (after, brace) := (before.keep '}').cut
    (after, done ++ brace)

def Reader.stepCode (r : Reader) (c : Char) (rest : Text) : Reader × List Text :=
  if isQuote c then ({ r.keep c with mode := .code (.within c) }, [])
  else if c = '(' then ({ r.keep c with parens := r.parens + 1 }, [])
  else if c = ')' then ({ r.keep c with parens := r.parens - 1 }, [])
  else if r.parens > 0 then (r.keep c, [])
  else if r.initializers > 0 then
    if c = '{' then ({ r.keep c with initializers := r.initializers + 1 }, [])
    else if c = '}' then ({ r.keep c with initializers := r.initializers - 1 }, [])
    else (r.keep c, [])
  else if c = '{' then r.openBrace rest
  else if c = '}' then r.closeBrace rest
  else if c = ';' then (r.keep c).cut
  else if c = ':' ∧ endsLabel r.pending rest then (r.keep c).cut
  else (r.keep c, [])

/-- the state after `c` and the statements that end there, when `rest` follows -/
def Reader.step (r : Reader) (c : Char) (rest : Text) : Reader × List Text :=
  match r.mode with
  | .code .outside => r.stepCode c rest
  | .code literal => ({ r.keep c with mode := .code (literal.next c) }, [])
  | .emptyPair =>
    if c = '}' then
      let after := { r.keep c with mode := .code .outside }
      if nextVisible rest = some ';' then (after, []) else after.cut
    else (r.keep c, [])
  | .closer =>
    if c = ';' then ({ r.keep c with mode := .code .outside }).cut else (r.keep c, [])

/-! ## a text -/

/-- the state after a text and the statements that end in it, when nothing follows -/
def Reader.readAll (r : Reader) : Text → Reader × List Text
  | [] => (r, [])
  | c :: rest =>
    let (r', done) := r.step c rest
    let (r'', more) := r'.readAll rest
    (r'', done ++ more)

/-- the state after `t` and the statements that end in it, when `after` follows -/
def Reader.read (r : Reader) (t after : Text) : Reader × List Text :=
  match t with
  | [] => (r, [])
  | c :: rest =>
    let (r', done) := r.step c (rest ++ after)
    let (r'', more) := r'.read rest after
    (r'', done ++ more)

theorem Reader.readAll_nil (r : Reader) : r.readAll [] = (r, []) := rfl

theorem Reader.readAll_cons (r : Reader) (c : Char) (t : Text) :
    r.readAll (c :: t) = (((r.step c t).1.readAll t).1,
      (r.step c t).2 ++ ((r.step c t).1.readAll t).2) := rfl

theorem Reader.read_nil (r : Reader) (after : Text) : r.read [] after = (r, []) := rfl

theorem Reader.read_cons (r : Reader) (c : Char) (t after : Text) :
    r.read (c :: t) after =
      (((r.step c (t ++ after)).1.read t after).1,
        (r.step c (t ++ after)).2 ++ ((r.step c (t ++ after)).1.read t after).2) := rfl

/-- reading a text is reading its first part in front of the second, then the second -/
theorem Reader.readAll_append (r : Reader) (a b : Text) :
    r.readAll (a ++ b) =
      (((r.read a b).1.readAll b).1, (r.read a b).2 ++ ((r.read a b).1.readAll b).2) := by
  induction a generalizing r with
  | nil => simp [Reader.read_nil]
  | cons c a ih =>
    rw [List.cons_append, Reader.readAll_cons, Reader.read_cons, ih, List.append_assoc]

theorem Reader.read_append (r : Reader) (a b after : Text) :
    r.read (a ++ b) after =
      (((r.read a (b ++ after)).1.read b after).1,
        (r.read a (b ++ after)).2 ++ ((r.read a (b ++ after)).1.read b after).2) := by
  induction a generalizing r with
  | nil => simp [Reader.read_nil]
  | cons c a ih =>
    rw [List.cons_append, Reader.read_cons, Reader.read_cons, ih, List.append_assoc]
    simp

def segments (line : Text) : List Text :=
  let (r, done) := Reader.fresh.readAll line
  done ++ segment r.pending

def splitLine (line : Text) : List Text := (segments line).flatMap peelHeaders

end CodeChart
