import HyprShelld.Json.Number
import HyprShelld.Json.Value

/-! Number printing and reading as the codecs use them. Both are library code outside the
repository; the laws are those its documentation promises of shortest printing. -/
namespace HyprShelld

/-- The largest int, the length a lexeme may have. -/
def maximumInt : Nat := 2 ^ 31 - 1

structure NumberText where
  /-- The shortest text of a binary64 value. -/
  print : ℚ → QString
  /-- The nearest binary64 value of a whole lexeme, NaN for other text. -/
  read : QString → Double
  print_lexeme : ∀ q, IsBinary64 q → IsNumberLexeme (print q)
  print_length : ∀ q, IsBinary64 q → (print q).length ≤ maximumInt
  print_zero : print 0 = [unit '0']
  read_print : ∀ q, IsBinary64 q → read (print q) = .finite q
  read_binary64 : ∀ s q, read s = .finite q → IsBinary64 q

namespace NumberText

/-- A number inside JSON text, which has no infinities and no NaN. -/
def printDouble (t : NumberText) : Double → QString
  | .finite q => t.print q
  | .infinity _ | .nan => qstr "null"

end NumberText
end HyprShelld
