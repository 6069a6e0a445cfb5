import LayeredConfig.Text

/-! The characters that count as blank, and the characters that end a line. -/

namespace LayeredConfig

namespace CodePoint

/-- Blanks have the Unicode property White_Space or are one of the four ASCII separators. -/
def isBlank (c : CodePoint) : Bool :=
  let n := c.value
  (9 ≤ n && n ≤ 13) || (0x1C ≤ n && n ≤ 0x20) || n = 0x85 || n = 0xA0 || n = 0x1680
    || (0x2000 ≤ n && n ≤ 0x200A) || n = 0x2028 || n = 0x2029 || n = 0x202F || n = 0x205F
    || n = 0x3000

/-- A line ends at a line feed, carriage return, vertical tab, form feed, one of three ASCII
separators, next line, line separator or paragraph separator. -/
def isLineEnd (c : CodePoint) : Bool :=
  let n := c.value
  (10 ≤ n && n ≤ 13) || (0x1C ≤ n && n ≤ 0x1E) || n = 0x85 || n = 0x2028 || n = 0x2029

theorem isBlank_of_isLineEnd {c : CodePoint} (h : c.isLineEnd = true) : c.isBlank = true := by
  simp only [isLineEnd, isBlank, Bool.or_eq_true, Bool.and_eq_true, decide_eq_true_eq] at *
  omega

end CodePoint

namespace Text

/-- The text less the blanks at both ends. -/
def trim (t : Text) : Text := trimEnd CodePoint.isBlank (trimStart CodePoint.isBlank t)

theorem dropWhile_isBlank_eq_self {t : Text} (h : ∀ c ∈ t, c.isBlank = false) :
    t.dropWhile CodePoint.isBlank = t := by
  cases t with
  | nil => rfl
  | cons c t => exact List.dropWhile_cons_of_neg (by simp [h c List.mem_cons_self])

theorem trim_eq_self {t : Text} (h : ∀ c ∈ t, c.isBlank = false) : t.trim = t := by
  rw [trim, trimStart, dropWhile_isBlank_eq_self h, trimEnd,
    dropWhile_isBlank_eq_self fun c hc => h c (List.mem_reverse.mp hc), List.reverse_reverse]

def consLine (c : CodePoint) : List Text → List Text
  | [] => [[c]]
  | l :: ls => (c :: l) :: ls

/-- The lines of a text without their ends. A carriage return and the line feed after it end
one line, and a text that ends in a line end has no empty line after it. -/
def lines : Text → List Text
  | [] => []
  | .scalar '\r' :: .scalar '\n' :: rest => [] :: lines rest
  | c :: rest => if c.isLineEnd then [] :: lines rest else consLine c (lines rest)

end Text

end LayeredConfig
