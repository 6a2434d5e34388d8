set_option autoImplicit false

/-!
White space in the sense of the Unicode property, trimming, and lower case for ASCII letters.
-/
namespace EntityWorld.Text

/-- The 25 characters with the property `White_Space`. -/
def isBlank (c : Char) : Bool :=
  let n := c.toNat
  (9 ≤ n && n ≤ 13) || n == 0x20 || n == 0x85 || n == 0xa0 || n == 0x1680 ||
    (0x2000 ≤ n && n ≤ 0x200a) || n == 0x2028 || n == 0x2029 || n == 0x202f || n == 0x205f ||
    n == 0x3000

def trimStart (cs : List Char) : List Char := cs.dropWhile isBlank

def trim (s : String) : List Char := (trimStart (trimStart s.toList).reverse).reverse

def keyword (s : String) : String := String.ofList ((trim s).map Char.toLower)

theorem isBlank_of_isWhitespace (c : Char) (h : c.isWhitespace = true) : isBlank c = true := by
  simp only [Char.isWhitespace, Bool.or_eq_true, decide_eq_true_eq] at h
  rcases h with ((h | h) | h) | h <;> subst h <;> decide

/-- `1`, `true`, `yes`, `on` are yes; `0`, `false`, `no`, `off` are no; case and blanks aside. -/
def switch? (s : String) : Option Bool :=
  let word := keyword s
  if word ∈ ["1", "true", "yes", "on"] then some true
  else if word ∈ ["0", "false", "no", "off"] then some false
  else none

end EntityWorld.Text
