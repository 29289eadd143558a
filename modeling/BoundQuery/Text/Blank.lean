/-!
# Blank text

The characters of the Unicode property White_Space, the texts that hold nothing else, and
trimming. Characters are compared by code point alone; no other property is consulted.
-/

set_option autoImplicit false

namespace BoundQuery.Text

/-- The ranges of code points with the property White_Space, both ends included. -/
def blankRanges : List (Nat × Nat) :=
  [(0x09, 0x0D), (0x20, 0x20), (0x85, 0x85), (0xA0, 0xA0), (0x1680, 0x1680), (0x2000, 0x200A),
    (0x2028, 0x2029), (0x202F, 0x202F), (0x205F, 0x205F), (0x3000, 0x3000)]

/-- Whether a character is white space. Zero-width spaces are not. -/
def isBlankChar (char : Char) : Bool :=
  blankRanges.any fun range => range.1 ≤ char.toNat && char.toNat ≤ range.2

def isBlank (text : String) : Bool :=
  text.toList.all isBlankChar

/-- The characters without the white space before the first and after the last other one. -/
def trimChars (chars : List Char) : List Char :=
  ((chars.dropWhile isBlankChar).reverse.dropWhile isBlankChar).reverse

def trim (text : String) : String :=
  String.ofList (trimChars text.toList)

@[simp] theorem isBlank_empty : isBlank "" = true := by
  simp [isBlank]

@[simp] theorem toList_trim (text : String) : (trim text).toList = trimChars text.toList := by
  simp [trim]

private theorem dropBlank_eq_nil_iff {chars : List Char} :
    chars.dropWhile isBlankChar = [] ↔ ∀ char ∈ chars, isBlankChar char = true := by
  induction chars with
  | nil => simp
  | cons first rest ih => cases blank : isBlankChar first <;> simp [blank, ih]

theorem trimChars_eq_nil_iff {chars : List Char} :
    trimChars chars = [] ↔ ∀ char ∈ chars, isBlankChar char = true := by
  simp only [trimChars, List.reverse_eq_nil_iff, dropBlank_eq_nil_iff, List.mem_reverse]
  constructor
  · intro tailBlank
    induction chars with
    | nil => simp
    | cons first rest ih => cases blank : isBlankChar first <;> simp_all
  · intro allBlank char member
    exact allBlank char ((List.dropWhile_sublist _).subset member)

/-- A text is blank exactly if trimming leaves nothing of it. -/
theorem trim_eq_empty_iff {text : String} : trim text = "" ↔ isBlank text = true := by
  rw [← String.toList_inj, toList_trim, String.toList_empty, trimChars_eq_nil_iff, isBlank,
    List.all_eq_true]

end BoundQuery.Text
