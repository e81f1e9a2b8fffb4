import CodeChart.Source.Segment

/-!
# Kinds of statements

What a statement is, read off its first words and its braces.

* `Kind`, `Kind.ofText`   the kind of a statement; the first rule that fits decides;
* `declares`, `isSkipped` statements that never execute: declaration headers, directives;
* `braceBalance`          opening less closing braces, and what follows from it;
* `loopWord`, `caseValue` the parts of a statement that its label is made of.

A keyword counts only as a whole word.
-/

namespace CodeChart

inductive Kind where
  | conditional
  | alternative
  | switch
  | caseLabel
  | loop
  | doLoop
  | tryBlock
  | handler
  | jump
  | plain
  deriving DecidableEq, Repr

def Kind.all : List Kind :=
  [.conditional, .alternative, .switch, .caseLabel, .loop, .doLoop, .tryBlock, .handler, .jump,
    .plain]

def Kind.name : Kind → Text
  | .conditional => "if".toList
  | .alternative => "else".toList
  | .switch => "switch".toList
  | .caseLabel => "case".toList
  | .loop => "loop".toList
  | .doLoop => "do".toList
  | .tryBlock => "try".toList
  | .handler => "catch".toList
  | .jump => "jump".toList
  | .plain => "statement".toList

def Kind.ofName? (t : Text) : Option Kind := Kind.all.find? fun k => k.name = t

theorem Kind.ofName?_name (k : Kind) : Kind.ofName? k.name = some k := by
  cases k <;> rfl

/-! ## keywords -/

def declarationWords : List Text :=
  ["struct".toList, "class".toList, "enum".toList, "union".toList, "namespace".toList]

def loopWords : List Text := ["while".toList, "for".toList]

def jumpWords : List Text :=
  ["return".toList, "break".toList, "continue".toList, "goto".toList, "throw".toList]

/-- texts whose statements are skipped; no word needs to end after them -/
def skippedStarts : List Text := ["#".toList, "using namespace".toList, "template".toList]

def startsWithAny (words : List Text) (t : Text) : Bool := words.any fun w => startsWithWord w t

/-- `if`, or `else` and `if` with blanks between them -/
def startsConditional (t : Text) : Bool := startsWithWord "if".toList ((afterElse? t).getD t)

def Kind.ofText (t : Text) : Kind :=
  if startsConditional t then .conditional
  else if startsWithWord "else".toList t then .alternative
  else if startsWithWord "switch".toList t then .switch
  else if startsLabel t then .caseLabel
  else if startsWithAny loopWords t then .loop
  else if startsWithWord "do".toList t then .doLoop
  else if startsWithWord "try".toList t then .tryBlock
  else if startsWithWord "catch".toList t then .handler
  else if startsWithAny jumpWords t then .jump
  else .plain

/-! ## statements without a node -/

/-- `word` and at least one blank stand at the start -/
def declaresWith (t word : Text) : Bool :=
  word.isPrefixOf t && (t.drop word.length).head?.any isBlank

def declares (t : Text) : Bool := declarationWords.any (declaresWith t)

def isSkipped (t : Text) : Bool := skippedStarts.any fun s => s.isPrefixOf t

/-! ## braces -/

def braceBalance (t : Text) : Int := (t.count '{' : Int) - (t.count '}' : Int)

def opensScope (t : Text) : Bool := braceBalance t > 0

/-- the block of a header opens and closes in the statement itself -/
def hasEmptyBlock (t : Text) : Bool := t.contains '{' && braceBalance t == 0

/-- a brace at the start closes a scope even if the statement opens another -/
def closesScope (t : Text) : Bool := t.head? == some '}' || braceBalance t < 0

theorem braceBalance_append (a b : Text) :
    braceBalance (a ++ b) = braceBalance a + braceBalance b := by
  simp only [braceBalance, List.count_append, Int.natCast_add]
  omega

theorem opensScope_iff (t : Text) : opensScope t = true ↔ t.count '}' < t.count '{' := by
  unfold opensScope braceBalance
  rw [decide_eq_true_iff]
  omega

theorem hasEmptyBlock_iff (t : Text) :
    hasEmptyBlock t = true ↔ '{' ∈ t ∧ t.count '{' = t.count '}' := by
  simp only [hasEmptyBlock, braceBalance, Bool.and_eq_true, List.contains_iff_mem, beq_iff_eq]
  constructor
  · rintro ⟨h, hb⟩
    exact ⟨h, by omega⟩
  · rintro ⟨h, hb⟩
    exact ⟨h, by omega⟩

/-! ## parts of a statement -/

def loopWord (t : Text) : Text :=
  if "while".toList.isPrefixOf t then "while".toList else "for".toList

/-- the text before the first colon that stands next to no other colon -/
def beforeColon (afterColon : Bool) : Text → Text
  | [] => []
  | c :: rest =>
    if c = ':' ∧ afterColon = false ∧ rest.head? ≠ some ':' then []
    else c :: beforeColon (c == ':') rest

/-- the value of a case label; a `default` label has none -/
def caseValue (t : Text) : Text :=
  let word := "case".toList
  if word.isPrefixOf t then trim (beforeColon false (t.drop word.length)) else []

end CodeChart
