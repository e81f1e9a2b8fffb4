import CodeChart.Text.Basic

/-!
# Comments and logical lines

A block comment is deleted together with the line ends in it, so what stands before and after it
comes to stand on one logical line.  A text is read comment by comment.  The code in front of a
comment is glued to the last line, and its line ends open new ones; the comment itself only moves
the count of lines on.  A line has the number of its opening, unless its first visible characters
are glued on later: then it has the number that is reached there.

* `findComment?`    the leftmost block comment of a text, and the shortest one there; a comment
                    that is never closed is ordinary text;
* `Gluing`          lines that are being glued together, `Gluing.glue` and `Gluing.skip` for code
                    and for comments;
* `logicalLines`    the lines that remain, with their numbers;
* `cutLineComment`  a line up to its first `//`, inside a literal too.
-/

namespace CodeChart

def newlines (t : Text) : Nat := t.count '\n'

/-! ## block comments -/

def commentOpener : Text := ['/', '*']

def commentCloser : Text := ['*', '/']

/-- the text up to its first closing mark, which is in it, and what stands behind it -/
def splitCloser? : Text → Option (Text × Text)
  | [] => none
  | c :: rest =>
    if commentCloser.isPrefixOf (c :: rest) then some (commentCloser, rest.tail)
    else (splitCloser? rest).map fun p => (c :: p.1, p.2)

/-- a block comment with the text in front of it and the text behind it -/
structure FoundComment where
  code : Text
  comment : Text
  rest : Text

/-- the comment with which a text begins -/
def commentAt? (t : Text) : Option FoundComment :=
  if commentOpener.isPrefixOf t then
    (splitCloser? (t.drop 2)).map fun p => ⟨[], commentOpener ++ p.1, p.2⟩
  else none

def findComment? : Text → Option FoundComment
  | [] => none
  | c :: rest =>
    match commentAt? (c :: rest) with
    | some found => some found
    | none => (findComment? rest).map fun found => { found with code := c :: found.code }

theorem length_splitCloser?_lt {t : Text} {p : Text × Text} (h : splitCloser? t = some p) :
    p.2.length < t.length := by
  induction t generalizing p with
  | nil => cases h
  | cons c t ih =>
    rw [splitCloser?] at h
    split at h
    · obtain rfl := Option.some.inj h
      show t.tail.length < t.length + 1
      rw [List.length_tail]
      omega
    · obtain ⟨q, hq, rfl⟩ := Option.map_eq_some_iff.1 h
      have hlt := ih hq
      exact Nat.lt_succ_of_lt hlt

theorem length_commentAt?_lt {t : Text} {found : FoundComment} (h : commentAt? t = some found) :
    found.rest.length < t.length := by
  rw [commentAt?] at h
  split at h
  · obtain ⟨p, hp, rfl⟩ := Option.map_eq_some_iff.1 h
    have hlt := length_splitCloser?_lt hp
    rw [List.length_drop] at hlt
    show p.2.length < t.length
    omega
  · cases h

theorem length_findComment?_lt {t : Text} {found : FoundComment}
    (h : findComment? t = some found) : found.rest.length < t.length := by
  induction t generalizing found with
  | nil => cases h
  | cons c t ih =>
    rw [findComment?] at h
    split at h
    · rename_i first hfirst
      obtain rfl := Option.some.inj h
      exact length_commentAt?_lt hfirst
    · obtain ⟨later, hlater, rfl⟩ := Option.map_eq_some_iff.1 h
      have hlt := ih hlater
      exact Nat.lt_succ_of_lt hlt

/-! ## logical lines -/

structure LogicalLine where
  line : Nat
  text : Text
  deriving DecidableEq, Repr

/-- the lines that are complete, the latest one first, the line that is not, and the line of the
source that is reached -/
structure Gluing where
  complete : List LogicalLine
  last : LogicalLine
  reached : Nat
  deriving DecidableEq, Repr

namespace Gluing

def start : Gluing := ⟨[], ⟨1, []⟩, 1⟩

/-- the last line goes on; if it is blank so far, a text that is not gives it its number -/
def resume (g : Gluing) (part : Text) : Gluing :=
  let number :=
    if (trim g.last.text).isEmpty && !(trim part).isEmpty then g.reached else g.last.line
  { g with last := ⟨number, g.last.text ++ part⟩ }

/-- a line end, and what stands on the line behind it -/
def openLine (g : Gluing) (part : Text) : Gluing :=
  ⟨g.last :: g.complete, ⟨g.reached + 1, part⟩, g.reached + 1⟩

def glue (g : Gluing) (code : Text) : Gluing :=
  match splitOn '\n' code with
  | [] => g
  | part :: parts => parts.foldl openLine (g.resume part)

def skip (g : Gluing) (comment : Text) : Gluing :=
  { g with reached := g.reached + newlines comment }

def read (g : Gluing) (t : Text) : Gluing :=
  match _h : findComment? t with
  | none => g.glue t
  | some found => ((g.glue found.code).skip found.comment).read found.rest
termination_by t.length
decreasing_by exact length_findComment?_lt _h

def lines (g : Gluing) : List LogicalLine := (g.last :: g.complete).reverse

end Gluing

def logicalLines (src : Text) : List LogicalLine := (Gluing.start.read src).lines

/-! ## line comments -/

/-- the line up to its first `//` -/
def cutLineComment : Text → Text
  | [] => []
  | c :: rest => if c = '/' ∧ rest.head? = some '/' then [] else c :: cutLineComment rest

theorem cutLineComment_prefix (t : Text) : cutLineComment t <+: t := by
  induction t with
  | nil => exact List.prefix_refl _
  | cons c t ih =>
    simp only [cutLineComment]
    split
    · exact List.nil_prefix
    · exact (List.prefix_cons_inj c).2 ih

end CodeChart
