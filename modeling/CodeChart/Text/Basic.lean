/-!
# Text as a list of characters

Everything that is read and drawn is a list of characters, so that a definition can follow the
text and a proof can follow the definition.

* `isBlank`             the blank characters, line ends among them;
* `trimLeft`, `trimRight`, `trim`  a text without the blanks at its ends;
* `nextVisible`         the first character that is not blank;
* `textLe`              the order of texts by code points;
* `decimal`, `hexadecimal`  numbers in decimal digits, and in a given number of hexadecimal ones;
                        `digitsValue` reads decimal digits.
-/

namespace CodeChart

abbrev Text := List Char

-- `splitOn` gives the pieces between the occurrences of a character
export List (splitOn)

/-- the code point of `c` lies in one of the ranges, both ends included -/
def inRanges (ranges : List (Nat × Nat)) (c : Char) : Bool :=
  ranges.any fun r => r.1 ≤ c.toNat && c.toNat ≤ r.2

/-! ## blanks -/

def blankRanges : List (Nat × Nat) := [
  (0x09, 0x0D), (0x1C, 0x20), (0x85, 0x85), (0xA0, 0xA0), (0x1680, 0x1680), (0x2000, 0x200A),
  (0x2028, 0x2029), (0x202F, 0x202F), (0x205F, 0x205F), (0x3000, 0x3000)]

def isBlank (c : Char) : Bool := inRanges blankRanges c

/-- core's class of blanks is a part of this one -/
theorem isBlank_of_isWhitespace {c : Char} (h : c.isWhitespace = true) : isBlank c = true := by
  simp only [Char.isWhitespace, Bool.or_eq_true, decide_eq_true_eq] at h
  rcases h with ((rfl | rfl) | rfl) | rfl <;> decide

/-! ## the ends of a text -/

def trimLeft (t : Text) : Text := t.dropWhile isBlank

def trimRight (t : Text) : Text := (t.reverse.dropWhile isBlank).reverse

def trim (t : Text) : Text := trimRight (trimLeft t)

def nextVisible (t : Text) : Option Char := t.find? fun c => !isBlank c

def allBlank (t : Text) : Bool := t.all isBlank

theorem trimLeft_cons_of_blank {c : Char} (h : isBlank c = true) (t : Text) :
    trimLeft (c :: t) = trimLeft t := by
  simp [trimLeft, h]

theorem trimLeft_cons_of_visible {c : Char} (h : isBlank c = false) (t : Text) :
    trimLeft (c :: t) = c :: t := by
  simp [trimLeft, h]

theorem head?_trimLeft (t : Text) : (trimLeft t).head? = nextVisible t := by
  induction t with
  | nil => rfl
  | cons c t ih =>
    cases h : isBlank c with
    | true => rw [trimLeft_cons_of_blank h, ih]; simp [nextVisible, h]
    | false => rw [trimLeft_cons_of_visible h]; simp [nextVisible, h]

theorem length_trimLeft_le (t : Text) : (trimLeft t).length ≤ t.length :=
  (List.dropWhile_sublist _).length_le

theorem length_trimRight_le (t : Text) : (trimRight t).length ≤ t.length := by
  have h := (List.dropWhile_sublist (l := t.reverse) isBlank).length_le
  simpa [trimRight] using h

theorem length_trim_le (t : Text) : (trim t).length ≤ t.length :=
  Nat.le_trans (length_trimRight_le _) (length_trimLeft_le t)

theorem trimRight_cons_of_visible {c : Char} (h : isBlank c = false) (t : Text) :
    trimRight (c :: t) = c :: trimRight t := by
  unfold trimRight
  rw [List.reverse_cons, List.dropWhile_append]
  split
  · rename_i he
    rw [List.isEmpty_iff.1 he]
    simp [h]
  · simp

theorem trim_cons_of_visible {c : Char} (h : isBlank c = false) (t : Text) :
    trim (c :: t) = c :: trimRight t := by
  rw [trim, trimLeft_cons_of_visible h, trimRight_cons_of_visible h]

theorem trimRight_concat_of_visible {c : Char} (h : isBlank c = false) (t : Text) :
    trimRight (t ++ [c]) = t ++ [c] := by
  simp [trimRight, h]

/-- a text with visible characters at both ends stays as it is -/
theorem trim_of_visible_ends {c d : Char} (hc : isBlank c = false) (hd : isBlank d = false)
    (t : Text) : trim (c :: (t ++ [d])) = c :: (t ++ [d]) := by
  rw [trim_cons_of_visible hc, trimRight_concat_of_visible hd]

/-! ## characters, order and numbers -/

def replaceChar (a b : Char) (t : Text) : Text := t.map fun c => if c = a then b else c

def eraseFirst (w : Text) : Text → Text
  | [] => []
  | c :: rest => if w.isPrefixOf (c :: rest) then (c :: rest).drop w.length
      else c :: eraseFirst w rest

/-- no later in the order of code points -/
def textLe : Text → Text → Bool
  | [], _ => true
  | _ :: _, [] => false
  | c :: a, d :: b => if c = d then textLe a b else c.toNat.blt d.toNat

def decimal (n : Nat) : Text := Nat.toDigits 10 n

/-- the value of some decimal digits -/
def digitsValue (t : Text) : Nat := t.foldl (fun n c => 10 * n + (c.toNat - '0'.toNat)) 0

/-- the last `width` hexadecimal digits of a number -/
def hexadecimal : Nat → Nat → Text
  | 0, _ => []
  | width + 1, n => hexadecimal width (n / 16) ++ [Nat.digitChar (n % 16)]

/-- an integer in decimal digits, with a minus sign if it is negative -/
def signedDecimal : Int → Text
  | .ofNat n => decimal n
  | .negSucc n => '-' :: decimal (n + 1)

end CodeChart
