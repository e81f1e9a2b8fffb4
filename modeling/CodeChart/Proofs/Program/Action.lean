import CodeChart.Proofs.Program.Piece
import CodeChart.Proofs.Program.Syntax

/-!
# Functions, and headers without braces

* `Guard`, `Action`, `FunctionDef`   calls, blocks, headers whose body is one statement without
                       braces, and functions of them;
* `Action.pieces`, `Action.leaks`, `Action.size`   their statements, the scopes that they leave open
                       and the number of their nodes;
* `Guard.isLine_open`, `isLine_empty`, `isLine_bare`   the three forms of a header;
* `Action.isPiece`, `FunctionDef.isPiece`   every statement is a piece, so any layout will do.
-/

namespace CodeChart

/-! ## programs -/

/-- a word with a condition: `if`, `while` or `for` -/
structure Guard where
  word : Text
  known : word ∈ "if".toList :: loopWords
  condition : Group

/-- the blanks in an empty block -/
structure Gap where
  text : Text
  blank : allBlank text = true
  oneLine : '\n' ∉ text

def Gap.braces (gap : Gap) : Text := ' ' :: '{' :: (gap.text ++ ['}'])

def Guard.before (h : Guard) (rest : Text) : Text := grouped (h.word ++ [' ']) h.condition rest

def Guard.kind (h : Guard) : Kind := if h.word = "if".toList then .conditional else .loop

inductive Action where
  | call (f : Callee) (x : Group)
  | block (h : Guard) (body : List Action)
  /-- the braces stand on one line with nothing between them -/
  | emptyBlock (h : Guard) (gap : Gap)
  /-- no braces, the next statement is the body -/
  | bare (h : Guard) (body : Action)

inductive FunctionDef where
  | block (f : Callee) (x : Group) (body : List Action)
  | emptyBlock (f : Callee) (x : Group) (gap : Gap)

mutual

def Action.pieces : Action → List Text
  | .call f x => [grouped f.text x [';']]
  | .block h body => braced (h.before [' ', '{']) (actionPieces body)
  | .emptyBlock h gap => [h.before gap.braces]
  | .bare h body => h.before [] :: body.pieces

def actionPieces : List Action → List Text
  | [] => []
  | a :: rest => a.pieces ++ actionPieces rest

end

def FunctionDef.header : FunctionDef → Text
  | .block f x _ => grouped f.text x [' ', '{']
  | .emptyBlock f x gap => grouped f.text x gap.braces

def FunctionDef.pieces : FunctionDef → List Text
  | .block f x body => braced (FunctionDef.block f x body).header (actionPieces body)
  | .emptyBlock f x gap => [(FunctionDef.emptyBlock f x gap).header]

/-! ## scopes that stay open -/

/-- a bare header opens a scope unless its condition has braces, which are taken for a block -/
def Guard.leaks (h : Guard) : Nat := if '{' ∈ h.condition.text then 0 else 1

mutual

def Action.leaks : Action → Nat
  | .call _ _ | .emptyBlock _ _ => 0
  | .block _ body => actionLeaks body
  | .bare h body => h.leaks + body.leaks

def actionLeaks : List Action → Nat
  | [] => 0
  | a :: rest => a.leaks + actionLeaks rest

end

mutual

/-- the number of nodes -/
def Action.size : Action → Nat
  | .call _ _ | .emptyBlock _ _ => 1
  | .block _ body => actionSize body + 1
  | .bare _ body => body.size + 1

def actionSize : List Action → Nat
  | [] => 0
  | a :: rest => a.size + actionSize rest

end

def FunctionDef.leaks : FunctionDef → Nat
  | .block _ _ body => actionLeaks body
  | .emptyBlock _ _ _ => 0

def FunctionDef.size : FunctionDef → Nat
  | .block _ _ body => actionSize body + 1
  | .emptyBlock _ _ _ => 1

def FunctionDef.IsBlock : FunctionDef → Prop
  | .block _ _ _ => True
  | .emptyBlock _ _ _ => False

/-! ## lines and pieces -/

theorem Gap.braceBalance_eq (gap : Gap) : braceBalance gap.braces = 0 := by
  have hnone : ∀ c, isBlank c = false → gap.text.count c = 0 := by
    intro c hc
    rw [List.count_eq_zero]
    intro hm
    rw [List.all_eq_true.1 gap.blank c hm] at hc
    cases hc
  simp [braceBalance, Gap.braces, hnone '{' (by decide), hnone '}' (by decide)]

theorem Guard.word_cases (h : Guard) :
    h.word = "if".toList ∨ h.word = "while".toList ∨ h.word = "for".toList := by
  simpa only [loopWords, List.mem_cons, List.not_mem_nil, or_false] using h.known

theorem Guard.mem_conditionWords (h : Guard) : h.word ∈ conditionWords := by
  rcases h.word_cases with hw | hw | hw <;> rw [hw] <;> decide

theorem Guard.isLead (h : Guard) : IsLead (h.word ++ [' ']) := isLead_word h.mem_conditionWords

theorem Guard.kind_cases (h : Guard) : h.kind = .conditional ∨ h.kind = .loop := by
  unfold Guard.kind
  split
  · exact .inl rfl
  · exact .inr rfl

theorem Guard.leaves_eq (h : Guard) : h.kind.leaves = none := by
  rcases h.kind_cases with hk | hk <;> rw [hk] <;> rfl

theorem Guard.kind_ne (h : Guard) : h.kind ≠ .caseLabel := by
  rcases h.kind_cases with hk | hk <;> rw [hk] <;> decide

/-- how a statement that starts with a guard is read, whatever stands behind it -/
theorem Guard.ofText_eq (h : Guard) (rest : Text) : declares (h.before rest) = false ∧
    isSkipped (h.before rest) = false ∧ Kind.ofText (h.before rest) = h.kind := by
  rw [Guard.before, Guard.kind]
  rcases h.word_cases with hw | hw | hw <;> rw [hw]
  · exact ⟨rfl, rfl, rfl⟩
  · exact ⟨rfl, rfl, rfl⟩
  · exact ⟨rfl, rfl, rfl⟩

theorem Guard.isLine_of_placement (h : Guard) {rest : Text} {p : Placement}
    (hw : IsWholeLine (h.before rest)) (hb : 0 ≤ braceBalance rest)
    (hlast : rest.getLast? ≠ some ';') (hp : Placement.ofHeader (h.before rest) = p) :
    IsLine (h.before rest) h.kind p := by
  obtain ⟨hd, hs, hk⟩ := h.ofText_eq rest
  refine ⟨hw, isOrdinary_grouped h.isLead h.condition hd hs hb, hk, ?_⟩
  have hend : (h.before rest).getLast? ≠ some ';' := by
    rw [Guard.before, grouped_eq, List.getLast?_append]
    cases hr : rest.getLast? with
    | none =>
      rw [Option.none_or, ← List.cons_append, ← List.append_assoc, List.getLast?_concat]
      decide
    | some d =>
      rw [hr] at hlast
      exact hlast
  rcases h.kind_cases with hk | hk
  · rw [hk]
    exact hp
  · rw [hk, Kind.placement, if_neg hend]
    exact hp

theorem Guard.isLine_open (h : Guard) : IsLine (h.before [' ', '{']) h.kind .nest :=
  h.isLine_of_placement (isWholeLine_brace h.isLead h.condition) (by decide) (by decide)
    (ofHeader_of_open (braceBalance_grouped h.isLead h.condition _))

theorem Guard.isLine_empty (h : Guard) (gap : Gap) :
    IsLine (h.before gap.braces) h.kind .chain := by
  have hlast : gap.braces.getLast? = some '}' := by
    rw [Gap.braces, ← List.cons_append, ← List.cons_append]
    exact List.getLast?_concat
  refine h.isLine_of_placement (isWholeLine_pair h.isLead h.condition gap.blank gap.oneLine)
    (Int.le_of_eq gap.braceBalance_eq.symm) (by rw [hlast]; decide) (ofHeader_of_empty ?_ ?_)
  · rw [Guard.before, braceBalance_grouped h.isLead, gap.braceBalance_eq]
  · simp [Guard.before, grouped, Gap.braces]

theorem Guard.isLine_bare (h : Guard) :
    IsLine (h.before []) h.kind (if '{' ∈ h.condition.text then .chain else .nest) := by
  refine h.isLine_of_placement (isWholeLine_header h.mem_conditionWords h.condition) (by decide)
    (by decide) ?_
  have hbalance : braceBalance (h.before []) = 0 := braceBalance_grouped h.isLead h.condition []
  have hmem : '{' ∈ h.before [] ↔ '{' ∈ h.condition.text := by
    have hlead := h.isLead.not_mem (show isInert '{' = false by decide)
    constructor
    · intro hm
      rcases List.mem_append.1 hm with hm | hm
      · exact absurd hm hlead
      · have hparens : '{' ∈ h.condition.text ++ [')'] :=
          (List.mem_cons.1 hm).resolve_left (by decide)
        exact (List.mem_append.1 hparens).resolve_right (by decide)
    · intro hm
      exact List.mem_append_right _ (List.mem_cons_of_mem _ (List.mem_append_left _ hm))
  split
  · rename_i hb
    exact ofHeader_of_empty hbalance (hmem.2 hb)
  · rename_i hb
    rw [Placement.ofHeader, if_neg]
    rw [hasEmptyBlock_iff, hmem]
    exact fun hempty => hb hempty.1

theorem Callee.startsLabel_eq (f : Callee) (r : Text) :
    startsLabel (f.text ++ '(' :: r) = false := by
  rw [f.text_append, startsLabel, (f.starts r).startsWithWord_eq (w := "case".toList) (by decide),
    (f.starts r).startsWithWord_eq (w := "default".toList) (by decide)]
  rfl

theorem isPiece_braced {t : Text} {body : List Text} (ht : IsPiece t)
    (hbody : ∀ p ∈ body, IsPiece p) : ∀ p ∈ braced t body, IsPiece p := by
  intro p hp
  rcases List.mem_cons.1 hp with rfl | hp
  · exact ht
  · rcases List.mem_append.1 hp with hp | hp
    · exact hbody p hp
    · rw [List.mem_singleton.1 hp]
      exact isPiece_close

theorem Guard.startsLabel_eq (h : Guard) (r : Text) :
    startsLabel (h.word ++ [' '] ++ '(' :: r) = false := startsLabel_word h.mem_conditionWords _

mutual

theorem Action.isPiece (a : Action) : ∀ p ∈ a.pieces, IsPiece p := by
  match a with
  | .call f x =>
    intro p hp
    rw [List.mem_singleton.1 hp]
    exact isPiece_semicolon f.isLead f.startsLabel_eq x
  | .block h body =>
    exact isPiece_braced (isPiece_brace h.isLead h.startsLabel_eq h.condition)
      (actionPieces_isPiece body)
  | .emptyBlock h gap =>
    intro p hp
    rw [List.mem_singleton.1 hp]
    exact isPiece_pair h.isLead h.startsLabel_eq h.condition gap.blank gap.oneLine
  | .bare h body =>
    intro p hp
    rcases List.mem_cons.1 hp with rfl | hp
    · exact isPiece_header h.mem_conditionWords h.condition
    · exact body.isPiece p hp

theorem actionPieces_isPiece (as : List Action) : ∀ p ∈ actionPieces as, IsPiece p := by
  match as with
  | [] =>
    intro p hp
    cases hp
  | a :: rest =>
    intro p hp
    rcases List.mem_append.1 hp with hp | hp
    · exact a.isPiece p hp
    · exact actionPieces_isPiece rest p hp

end

theorem FunctionDef.isPiece (f : FunctionDef) : ∀ p ∈ f.pieces, IsPiece p := by
  cases f with
  | block f x body =>
    exact isPiece_braced (isPiece_brace f.isLead f.startsLabel_eq x) (actionPieces_isPiece body)
  | emptyBlock f x gap =>
    intro p hp
    rw [List.mem_singleton.1 hp]
    exact isPiece_pair f.isLead f.startsLabel_eq x gap.blank gap.oneLine

theorem isLine_emptyFunction (f : Callee) (x : Group) (gap : Gap) :
    IsLine (grouped f.text x gap.braces) .plain .chain where
  whole := isWholeLine_pair f.isLead x gap.blank gap.oneLine
  ordinary := isOrdinary_grouped f.isLead x (f.declares_eq x _) (f.isSkipped_eq x _)
    (Int.le_of_eq gap.braceBalance_eq.symm)
  kind := f.ofText_eq x _
  placement := by
    refine ofSibling_of_balanced ?_
    rw [braceBalance_grouped f.isLead, gap.braceBalance_eq]

end CodeChart
